import StoreLint.Config.Basic
import StoreLint.Glob.Expand
import StoreLint.Project.FileSystem

/-!
# The files of a project

A scan walks the base directory, or the included ones, and collects the source files
that are not ignored.  Paths are written as they are reached: the start of the walk
joined with what lies below it.  Every directory is walked, an ignored one too, and
ignores apply to each path by itself.
-/

namespace StoreLint

def sourceExtensions : List String := ["js", "jsx", "mjs", "cjs", "ts", "tsx", "mts", "cts"]

/-- Whether a path has the extension of a source file. -/
def isSourcePath (path : String) : Bool :=
  match Path.extension? path with
  | some extension => sourceExtensions.contains extension
  | none => false

/-- What went wrong in a scan without stopping it. -/
inductive ScanWarning where
  | invalidIgnore (pattern : String) (error : Glob.PatternError)
  | invalidInclude (pattern : String) (error : Glob.PatternError)
  | missingInclude (path : String)
  | inaccessible (path : String) (error : PathError)
deriving DecidableEq, Repr, Inhabited

def ScanWarning.message : ScanWarning → String
  | .invalidIgnore pattern error => s!"Invalid ignore pattern '{pattern}': {error.message}"
  | .invalidInclude pattern error => s!"Invalid glob pattern '{pattern}': {error.message}"
  | .missingInclude path => s!"Include path does not exist: {path}"
  | .inaccessible path error =>
      s!"Cannot access path: IO error for operation on {path}: {error.message}"

/-- What a scan is asked for. -/
structure ScanRequest where
  base : String
  includes : List String
  ignores : List String
  ignoreTestFiles : Bool
deriving DecidableEq, Repr, Inhabited

/-- The paths that a scan leaves out: those below a plain path, and those that fit a pattern. -/
structure IgnoreSet where
  paths : List String
  patterns : List (List Glob.Token)
deriving Repr, Inhabited

namespace IgnoreSet

def ignores (set : IgnoreSet) (path : String) : Bool :=
  set.paths.any (fun base => Path.startsWith path base) ||
    set.patterns.any fun tokens => Glob.matchTokens tokens path.toList

def patternsOf (texts : List String) : List (List Glob.Token) :=
  texts.filterMap fun text => (Glob.parse text).toOption

def ofRequest (request : ScanRequest) : IgnoreSet :=
  let globs := request.ignores.filter Glob.hasWildcard
  let plain := request.ignores.filter fun text => !Glob.hasWildcard text
  let tests := if request.ignoreTestFiles then testFilePatterns else []
  { paths := plain.map fun path => Path.join request.base path
    patterns := patternsOf globs ++ patternsOf tests }

end IgnoreSet

namespace ScanRequest

/-- The warnings about ignores that are no patterns. -/
def ignoreWarnings (request : ScanRequest) : List ScanWarning :=
  (request.ignores.filter Glob.hasWildcard).filterMap fun pattern =>
    match Glob.parse pattern with
    | .ok _ => none
    | .error error => some (.invalidIgnore pattern error)

/-- The starts of walks that one include asks for, or a warning. -/
def startsOf (system : FileSystem) (base pattern : String) : Except ScanWarning (List String) :=
  let path := Path.join base pattern
  if Glob.hasWildcard pattern then
    match Glob.directories system path with
    | .ok paths => .ok paths
    | .error error => .error (.invalidInclude pattern error)
  else if system.holds path then .ok [path]
  else .error (.missingInclude path)

/-- The starts of all walks: the base, or what the includes ask for. -/
def starts (request : ScanRequest) (system : FileSystem) : List String :=
  if request.includes.isEmpty then [request.base]
  else
    request.includes.flatMap fun pattern =>
      match startsOf system request.base pattern with
      | .ok paths => paths
      | .error _ => []

def includeWarnings (request : ScanRequest) (system : FileSystem) : List ScanWarning :=
  request.includes.filterMap fun pattern =>
    match startsOf system request.base pattern with
    | .ok _ => none
    | .error warning => some warning

end ScanRequest

/-- Everything that is reached from the start of a walk, or why nothing is. -/
def FileSystem.walkFrom (system : FileSystem) (start : String) :
    Except PathError (List (String × FileTree)) := do
  let node ← system.lookup start
  return node.walk start

/-- Whether the path and what it names are a source file. -/
def isSourceFile (found : String × FileTree) : Bool :=
  !found.2.isDirectory && isSourcePath found.1

/-- What a scan finds. -/
structure ScanResult where
  /-- The paths of the files in ascending order, each once. -/
  files : List String
  /-- How many walks could not start. -/
  skipped : Nat
  warnings : List ScanWarning
deriving Repr, Inhabited

def walkedFiles (system : FileSystem) (ignored : IgnoreSet) (start : String) : List String :=
  match system.walkFrom start with
  | .error _ => []
  | .ok reached =>
      (reached.filter fun found => isSourceFile found && !ignored.ignores found.1).map Prod.fst

/-- The warning about a walk that cannot start. -/
def walkWarning? (system : FileSystem) (start : String) : Option ScanWarning :=
  match system.walkFrom start with
  | .error error => some (.inaccessible start error)
  | .ok _ => none

def ascending (texts : List String) : List String :=
  (texts.mergeSort fun left right => left ≤ right).eraseDups

def ScanRequest.scan (request : ScanRequest) (system : FileSystem) : ScanResult :=
  let ignored := IgnoreSet.ofRequest request
  let starts := request.starts system
  let failed := starts.filterMap (walkWarning? system)
  { files := ascending (starts.flatMap (walkedFiles system ignored))
    skipped := failed.length
    warnings := request.ignoreWarnings ++ request.includeWarnings system ++ failed }

end StoreLint
