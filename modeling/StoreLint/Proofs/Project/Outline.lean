import Mathlib.Data.List.Basic
import StoreLint.Project.Scan

/-!
# Scans see no contents

The outline of a file tree has the same files and directories, but nothing in the files.
Looking up a path and walking a directory commute with taking the outline, so a scan finds
the same in a file system and in its outline: which files are checked depends on the names
in a project and on its configuration, never on what a file holds.
-/

namespace StoreLint

namespace FileTree

mutual

def outline : FileTree → FileTree
  | .file _ => .file .binary
  | .directory entries => .directory (outlineEntries entries)

/-- The entries of a directory with nothing in their files. -/
def outlineEntries : List (String × FileTree) → List (String × FileTree)
  | [] => []
  | (name, node) :: entries => (name, node.outline) :: outlineEntries entries

end

theorem outlineEntries_eq_map (entries : List (String × FileTree)) :
    outlineEntries entries = entries.map fun entry => (entry.1, entry.2.outline) := by
  induction entries with
  | nil => rfl
  | cons entry entries induction => rw [outlineEntries, induction, List.map_cons]

@[simp] theorem isDirectory_outline (node : FileTree) :
    node.outline.isDirectory = node.isDirectory := by
  cases node with
  | file content => rfl
  | directory entries => rfl

theorem child?_outlineEntries (name : String) (entries : List (String × FileTree)) :
    child? name (outlineEntries entries) = (child? name entries).map outline := by
  induction entries with
  | nil => rfl
  | cons entry entries induction =>
      rw [outlineEntries, child?, child?]
      split
      · rfl
      · exact induction

theorem follow_outline (outer : List FileTree) (current : FileTree) (pieces : List String) :
    follow (outer.map outline) current.outline pieces =
      (follow outer current pieces).map outline := by
  induction pieces generalizing outer current with
  | nil => simp only [follow, Except.map]
  | cons piece pieces induction =>
      cases current with
      | file content => rfl
      | directory entries =>
          -- The directories around the node are outlined as well, for `..` may lead back to them.
          have stays := induction outer (.directory entries)
          rw [outline] at stays ⊢
          simp only [follow]
          by_cases isIdle : (piece == "" || piece == ".") = true
          · rw [if_pos isIdle, if_pos isIdle]
            exact stays
          · rw [if_neg isIdle, if_neg isIdle]
            by_cases goesUp : (piece == "..") = true
            · rw [if_pos goesUp, if_pos goesUp]
              cases outer with
              | nil => exact stays
              | cons parent outer => exact induction outer parent
            · rw [if_neg goesUp, if_neg goesUp, child?_outlineEntries]
              cases child? piece entries with
              | none => rfl
              | some node =>
                  have enters := induction (.directory entries :: outer) node
                  rw [List.map_cons, outline] at enters
                  exact enters

mutual

theorem walk_outline (path : String) (node : FileTree) :
    node.outline.walk path = (node.walk path).map fun found => (found.1, found.2.outline) := by
  cases node with
  | file content => rfl
  | directory entries =>
      rw [outline, walk, walk, List.map_cons, outline, walkEntries_outline path entries]

theorem walkEntries_outline (path : String) (entries : List (String × FileTree)) :
    walkEntries path (outlineEntries entries) =
      (walkEntries path entries).map fun found => (found.1, found.2.outline) := by
  cases entries with
  | nil => rfl
  | cons entry entries =>
      rw [outlineEntries, walkEntries, walkEntries, List.map_append, walk_outline _ entry.2,
        walkEntries_outline path entries]

end

end FileTree

namespace FileSystem

variable (system : FileSystem)

def outline : FileSystem := { system with root := system.root.outline }

theorem root_outline : system.outline.root = system.root.outline := rfl

/-- What a path names in the outline is the outline of what it names. -/
theorem lookup_outline (path : String) :
    system.outline.lookup path = (system.lookup path).map FileTree.outline := by
  unfold lookup
  split
  · rfl
  · exact FileTree.follow_outline [] system.root _

@[simp] theorem holds_outline (path : String) :
    system.outline.holds path = system.holds path := by
  rw [holds, holds, lookup_outline]
  cases system.lookup path with
  | error error => rfl
  | ok node => rfl

theorem walkFrom_outline (start : String) :
    system.outline.walkFrom start =
      (system.walkFrom start).map (List.map fun found => (found.1, found.2.outline)) := by
  rw [walkFrom, walkFrom, lookup_outline]
  cases system.lookup start with
  | error error => rfl
  | ok node => exact congrArg Except.ok (FileTree.walk_outline start node)

end FileSystem

namespace Glob

mutual

theorem depthOf_outline (node : FileTree) : depthOf node.outline = depthOf node := by
  cases node with
  | file content => rfl
  | directory entries => rw [FileTree.outline, depthOf, depthOf, depthOfEntries_outline entries]

theorem depthOfEntries_outline (entries : List (String × FileTree)) :
    depthOfEntries (FileTree.outlineEntries entries) = depthOfEntries entries := by
  cases entries with
  | nil => rfl
  | cons entry entries =>
      rw [FileTree.outlineEntries, depthOfEntries, depthOfEntries, depthOf_outline entry.2,
        depthOfEntries_outline entries]

end

variable (system : FileSystem)

theorem childrenOf_outline (path : String) :
    childrenOf system.outline path = childrenOf system path := by
  rw [childrenOf, childrenOf, FileSystem.lookup_outline]
  cases system.lookup path with
  | error error => rfl
  | ok node =>
      cases node with
      | file content => rfl
      | directory entries =>
          simp only [Except.map, FileTree.outline, FileTree.outlineEntries_eq_map, List.map_map]
          rfl

theorem namesDirectory_outline : namesDirectory system.outline = namesDirectory system := by
  funext path
  rw [namesDirectory, namesDirectory, FileSystem.lookup_outline]
  cases system.lookup path with
  | error error => rfl
  | ok node => exact node.isDirectory_outline

theorem directoriesBelow_outline (depth : Nat) (path : String) :
    directoriesBelow system.outline depth path = directoriesBelow system depth path := by
  induction depth generalizing path with
  | zero => rfl
  | succ depth induction =>
      simp only [directoriesBelow, namesDirectory_outline, childrenOf_outline, induction]

theorem pathsFrom_outline (isBelow : Bool) (path : String) (components : List Component) :
    pathsFrom system.outline isBelow path components =
      pathsFrom system isBelow path components := by
  induction components generalizing isBelow path with
  | nil => rfl
  | cons component rest induction =>
      simp only [pathsFrom, induction, namesDirectory_outline, childrenOf_outline,
        directoriesBelow_outline, FileSystem.root_outline, depthOf_outline,
        FileSystem.holds_outline]

theorem directories_outline (pattern : String) :
    directories system.outline pattern = directories system pattern := by
  simp only [directories, pathsFrom_outline, namesDirectory_outline]

end Glob

theorem walkedFiles_outline (system : FileSystem) (ignored : IgnoreSet) :
    walkedFiles system.outline ignored = walkedFiles system ignored := by
  funext start
  rw [walkedFiles, walkedFiles, FileSystem.walkFrom_outline]
  cases system.walkFrom start with
  | error error => rfl
  | ok reached =>
      simp only [Except.map, List.filter_map, List.map_map, isSourceFile,
        Function.comp_def, FileTree.isDirectory_outline]

theorem walkWarning?_outline (system : FileSystem) :
    walkWarning? system.outline = walkWarning? system := by
  funext start
  rw [walkWarning?, walkWarning?, FileSystem.walkFrom_outline]
  cases system.walkFrom start with
  | error error => rfl
  | ok reached => rfl

namespace ScanRequest

theorem startsOf_outline (system : FileSystem) (base pattern : String) :
    startsOf system.outline base pattern = startsOf system base pattern := by
  simp only [startsOf, Glob.directories_outline, FileSystem.holds_outline]

/-- A scan finds the same in a system and in its outline. -/
theorem scan_outline (request : ScanRequest) (system : FileSystem) :
    request.scan system.outline = request.scan system := by
  simp only [scan, starts, includeWarnings, startsOf_outline, walkedFiles_outline,
    walkWarning?_outline]

end ScanRequest

end StoreLint
