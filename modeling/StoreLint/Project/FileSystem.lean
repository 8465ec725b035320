import StoreLint.Project.FileTree

/-!
# File systems

A file tree and a directory in it, the current one.  A path that begins with a separator
is followed from the root, and any other path from the current directory.
-/

namespace StoreLint

/-- A tree of files, and the names that lead to the current directory. -/
structure FileSystem where
  root : FileTree
  current : List String
deriving Repr, Inhabited

namespace FileSystem

/-- The pieces from the root on.  Only a path from the root begins with an empty piece. -/
def fromRoot (system : FileSystem) (pieces : List String) : List String :=
  if pieces.head? == some "" then pieces else system.current ++ pieces

def lookup (system : FileSystem) (path : String) : Except PathError FileTree :=
  if path.isEmpty then .error .notFound
  else FileTree.follow [] system.root (system.fromRoot (Path.segments path))

def holds (system : FileSystem) (path : String) : Bool := (system.lookup path).isOk

/-- The content of the file that a path names. -/
def content? (system : FileSystem) (path : String) : Option FileContent :=
  match system.lookup path with
  | .ok (.file content) => some content
  | _ => none

/-- The names that lead to the place of a path without `..`. -/
def names (system : FileSystem) (path : String) : List String :=
  (system.fromRoot (Path.segments path)).filter fun piece => piece != "" && piece != "."

def writeFile (system : FileSystem) (path : String) (content : FileContent) : FileSystem :=
  { system with root := .put (.file content) (system.names path) system.root }

/-- Makes a directory if there is nothing at its place. -/
def makeDirectory (system : FileSystem) (path : String) : FileSystem :=
  if system.holds path then system
  else { system with root := .put .empty (system.names path) system.root }

def removeFile (system : FileSystem) (path : String) : FileSystem :=
  { system with root := .erase (system.names path) system.root }

end FileSystem

end StoreLint
