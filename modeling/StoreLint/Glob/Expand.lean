import StoreLint.Glob.Pattern
import StoreLint.Project.FileSystem

/-!
# Paths that a pattern names

A pattern is matched against a file system component by component, from the root or from
the current directory on.  A component without wildcards is looked up, any other one is
compared with the names in the directory, and `**` stands for a directory and everything
below it.  Names in the current directory are written without it.
-/

namespace StoreLint.Glob

/-- One component of a pattern. -/
structure Component where
  tokens : List Token
deriving DecidableEq, Repr, Inhabited

/-- The plain text of tokens, if they are all plain characters. -/
def plainText? : List Token → Option (List Char)
  | [] => some []
  | .char c :: tokens => (plainText? tokens).map (c :: ·)
  | _ :: _ => none

namespace Component

/-- The name of a component without wildcards. -/
def plain? (component : Component) : Option String :=
  (plainText? component.tokens).map String.ofList

/-- Whether the component stands for any number of directories. -/
def isRecursive (component : Component) : Bool := component.tokens.contains .anyComponents

/-- Whether the component has a name of its own for the directory and the one above it. -/
def specials (component : Component) : List String :=
  match component.tokens with
  | .char '.' :: _ =>
      [".", ".."].filter fun name => matchTokens component.tokens name.toList
  | _ => []

def fits (component : Component) (name : String) : Bool :=
  matchTokens component.tokens name.toList

end Component

/-- The pieces of a pattern.  One at the end is left out if it is empty. -/
def usedPieces (pattern : String) : List String :=
  let pieces := Path.segments pattern
  if pieces.getLast? == some "" then pieces.dropLast else pieces

def readPiece (piece : String) : Except PatternError Component := do
  let tokens ← parse piece
  return ⟨tokens⟩

/-- The components of a pattern, unless one of them is no pattern. -/
def components (pattern : String) : Except PatternError (List Component) :=
  let pieces := usedPieces pattern
  (if Path.isAbsolute pattern then pieces.drop 1 else pieces).mapM readPiece

/-- The directory where a pattern starts. -/
def startOf (pattern : String) : String := if Path.isAbsolute pattern then "/" else "."

/-- The path of an entry of a directory. -/
def childPath (directory name : String) : String :=
  if Path.components directory == ["."] then name else Path.join directory name

/-- The entries of the directory that a path names, each with its path. -/
def childrenOf (system : FileSystem) (path : String) : List (String × String) :=
  match system.lookup path with
  | .ok (.directory entries) => entries.map fun entry => (childPath path entry.1, entry.1)
  | _ => []

def namesDirectory (system : FileSystem) (path : String) : Bool :=
  match system.lookup path with
  | .ok node => node.isDirectory
  | .error _ => false

/-- The directories below a path, and the path itself, down to the given depth. -/
def directoriesBelow (system : FileSystem) : (depth : Nat) → (path : String) → List String
  | 0, _ => []
  | depth + 1, path =>
      if namesDirectory system path then
        path :: (childrenOf system path).flatMap fun child => directoriesBelow system depth child.1
      else []

mutual

/-- The number of nested directories in a tree. -/
def depthOf : FileTree → Nat
  | .file _ => 1
  | .directory entries => depthOfEntries entries + 1

/-- The number of nested directories in the deepest of the entries. -/
def depthOfEntries : List (String × FileTree) → Nat
  | [] => 0
  | (_, node) :: entries => max (depthOf node) (depthOfEntries entries)

end

/-- The paths from `path` on that fit the components.  After a component that stands for any
number of directories (`isBelow`), the next one is compared with the names in each of them. -/
def pathsFrom (system : FileSystem) (isBelow : Bool) (path : String) :
    List Component → List String
  | [] => [path]
  | component :: rest =>
      if component.isRecursive then
        if isBelow then pathsFrom system true path rest
        else
          let below := directoriesBelow system (depthOf system.root) path
          -- The directory itself is no result of a pattern that ends here.
          if rest.all Component.isRecursive then below.drop 1
          else below.flatMap fun directory => pathsFrom system true directory rest
      else
        match (if isBelow then none else component.plain?) with
        | some name =>
            let next := childPath path name
            let isPresent :=
              if name == "." || name == ".." then namesDirectory system path else system.holds next
            if isPresent then pathsFrom system false next rest else []
        | none =>
            let named := (childrenOf system path).filter fun child => component.fits child.2
            let found := named.flatMap fun child =>
              if rest.isEmpty || namesDirectory system child.1 then
                pathsFrom system false child.1 rest
              else []
            let specials := if isBelow then [] else component.specials
            let special := specials.flatMap fun name =>
              if namesDirectory system path then pathsFrom system false (Path.join path name) rest
              else []
            found ++ special

def directories (system : FileSystem) (pattern : String) :
    Except PatternError (List String) := do
  let _ ← parse pattern
  let parts ← components pattern
  return (pathsFrom system false (startOf pattern) parts).filter (namesDirectory system)

end StoreLint.Glob
