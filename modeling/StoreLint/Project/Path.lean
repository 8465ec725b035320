/-!
# Paths

A path is kept as it is written.  Its components leave out repeated separators and
every `.` but a leading one, and paths are compared by components.
-/

namespace StoreLint.Path

/-- The pieces between the separators of a path, empty ones included. -/
def segments (path : String) : List String := path.splitOn "/"

/-- Whether a path starts at the root of the file system. -/
def isAbsolute (path : String) : Bool := path.startsWith "/"

/-- The components of a path; the root is written as a separator. -/
def components (path : String) : List String :=
  match segments path with
  | [] => []
  | first :: rest =>
      let isName := fun segment => segment != "" && segment != "."
      if isAbsolute path then "/" :: rest.filter isName
      else if first == "" then rest.filter isName
      else first :: rest.filter isName

/-- The path that is reached from `base` by `path`. -/
def join (base path : String) : String :=
  if isAbsolute path || base.isEmpty then path
  else if base.endsWith "/" then base ++ path
  else base ++ "/" ++ path

/-- Whether the components of `base` are the first ones of the path. -/
def startsWith (path base : String) : Bool := (components base).isPrefixOf (components path)

/-- The last component, if it is a name. -/
def fileName? (path : String) : Option String :=
  match (components path).getLast? with
  | none => none
  | some name => if name == "/" || name == "." || name == ".." then none else some name

/-- What follows the last dot of the file name, unless that dot is its first character. -/
def extension? (path : String) : Option String := do
  let name ← fileName? path
  let pieces := name.splitOn "."
  if pieces.length < 2 || (pieces.length == 2 && name.startsWith ".") then none
  else pieces.getLast?

/-- The segments, given last first, without those that add no component. -/
def dropIdle : List String → List String
  | [] => []
  | [first] => [first]
  | segment :: segments =>
      if segment == "" || segment == "." then dropIdle segments else segment :: segments

/-- The path without its last component, if it has one to lose. -/
def parent? (path : String) : Option String :=
  match components path with
  | [] => none
  | ["/"] => none
  | _ =>
      match dropIdle (segments path).reverse with
      | [] => none
      | _ :: outer =>
          match (dropIdle outer).reverse with
          | [""] => some (if isAbsolute path then "/" else "")
          | kept => some (String.intercalate "/" kept)

end StoreLint.Path
