import StoreLint.Project.Path

/-!
# File trees

Files and directories as a tree.  It is gone through piece by piece: an empty piece and
`.` stay, `..` goes up, at the root nowhere, and each of them is only allowed in a
directory.
-/

namespace StoreLint

/-- What a file holds: a text, or bytes that are no text. -/
inductive FileContent where
  | text (value : String)
  | binary
deriving DecidableEq, Repr, Inhabited

def FileContent.ofBytes (bytes : ByteArray) : FileContent :=
  match String.fromUTF8? bytes with
  | some value => .text value
  | none => .binary

/-- A file, or a directory with its entries by name. -/
inductive FileTree where
  | file (content : FileContent)
  | directory (entries : List (String × FileTree))
deriving Repr, Inhabited

/-- Why a path names nothing. -/
inductive PathError where
  | notFound
  | notDirectory
deriving DecidableEq, Repr, Inhabited

def PathError.message : PathError → String
  | .notFound => "No such file or directory (os error 2)"
  | .notDirectory => "Not a directory (os error 20)"

namespace FileTree

def empty : FileTree := .directory []

def isDirectory : FileTree → Bool
  | .directory _ => true
  | .file _ => false

/-- The entry with the name. -/
def child? (name : String) : List (String × FileTree) → Option FileTree
  | [] => none
  | (found, node) :: entries => if found == name then some node else child? name entries

/-- Follows the pieces of a path from the node `current`, which lies in the directories `outer`,
innermost first. -/
def follow (outer : List FileTree) (current : FileTree) : List String → Except PathError FileTree
  | [] => .ok current
  | piece :: pieces =>
      match current with
      | .file _ => .error .notDirectory
      | .directory entries =>
          if piece == "" || piece == "." then follow outer current pieces
          else if piece == ".." then
            match outer with
            | [] => follow [] current pieces
            | parent :: outer => follow outer parent pieces
          else
            match child? piece entries with
            | some node => follow (current :: outer) node pieces
            | none => .error .notFound

/-- The entries with the one of the given name replaced, or added at the end. -/
def putEntry (name : String) (node : FileTree) :
    List (String × FileTree) → List (String × FileTree)
  | [] => [(name, node)]
  | (found, old) :: entries =>
      if found == name then (found, node) :: entries
      else (found, old) :: putEntry name node entries

/-- Puts a node at the place that names lead to; missing directories are made. -/
def put (node : FileTree) : List String → FileTree → FileTree
  | [], _ => node
  | name :: names, tree =>
      let entries :=
        match tree with
        | .directory entries => entries
        | .file _ => []
      .directory (putEntry name (put node names ((child? name entries).getD empty)) entries)

/-- Takes away what names lead to. -/
def erase : List String → FileTree → FileTree
  | [], tree => tree
  | _, .file content => .file content
  | [name], .directory entries => .directory (entries.filter fun found => found.1 != name)
  | name :: names, .directory entries =>
      match child? name entries with
      | some node => .directory (putEntry name (erase names node) entries)
      | none => .directory entries

mutual

/-- All paths of a node that is reached by `path`, the node itself first. -/
def walk (path : String) : FileTree → List (String × FileTree)
  | .file content => [(path, .file content)]
  | .directory entries => (path, .directory entries) :: walkEntries path entries

/-- All paths of the entries of a directory that is reached by `path`. -/
def walkEntries (path : String) : List (String × FileTree) → List (String × FileTree)
  | [] => []
  | (name, node) :: entries => node.walk (Path.join path name) ++ walkEntries path entries

end

end FileTree

end StoreLint
