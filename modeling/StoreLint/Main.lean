import StoreLint.Command.Run

/-!
# The command line

The outer layer of the program: it reads the files below the current directory and below
the one that is to be checked, runs the command that the arguments name, writes the two
streams and ends with a status.
-/

namespace StoreLint

partial def readEntry (entry : IO.FS.DirEntry) : IO FileTree := do
  if ← entry.path.isDir then
    let entries ← entry.path.readDir
    let nodes ← entries.toList.mapM fun inner => do
      return (inner.fileName, ← readEntry inner)
    return .directory nodes
  else return .file (.ofBytes (← IO.FS.readBinFile entry.path))

/-- Reads what decides about the configuration of a directory into its place in a tree. -/
def readMarks (tree : FileTree) (names : List String) : IO FileTree := do
  let directory ← IO.FS.realPath ("/" ++ "/".intercalate names)
  [configFileName, repositoryMark].foldlM (fun tree (name : String) => do
    let path := directory / name
    if ← path.isDir then return .put .empty (names ++ [name]) tree
    else if ← path.pathExists then
      return .put (.file (.ofBytes (← IO.FS.readBinFile path))) (names ++ [name]) tree
    else return tree) tree

/-- Reads the files below a directory, and what decides about the configuration of the directories
above it, into their places in a tree. -/
def readInto (tree : FileTree) (path : String) : IO FileTree := do
  let directory ← IO.FS.realPath path
  let names := directory.components.filter (· != "")
  let above := (List.range names.length).map names.take
  let tree ← above.foldlM readMarks tree
  let entries ← directory.readDir
  let nodes ← entries.toList.mapM fun entry => do
    return (entry.fileName, ← readEntry entry)
  return .put (.directory nodes) names tree

/-- Reads the files that a command can come across. -/
def readSystem (command : Option Command) : IO FileSystem := do
  let current := (← IO.FS.realPath ".").components.filter (· != "")
  let here ← readInto .empty "."
  match command with
  | some (.check { sourceRoot := some path, .. }) =>
      match ← (readInto here path).toBaseIO with
      | .ok root => return { root, current }
      | .error _ => return { root := here, current }
  | _ => return { root := here, current }

/-- Writes the configuration file if a command has added it. -/
def saveConfig (before after : FileSystem) : IO Unit := do
  match before.content? configFileName, after.content? configFileName with
  | none, some (.text text) => IO.FS.writeFile configFileName text
  | _, _ => pure ()

def runHere (command : Option Command) : IO UInt32 := do
  let output ← IO.getStdout
  let system ← readSystem command
  let outcome := Command.run system (← output.isTty) command
  saveConfig system outcome.system
  output.putStr outcome.output
  (← IO.getStderr).putStr outcome.errors
  return outcome.status.toUInt32

/-- Says why there is no command to run. -/
def explainUsage (usage : Usage) : IO UInt32 := do
  let (status, text) := usage.report
  match text with
  | some text => (← IO.getStdout).putStr text
  | none => (← IO.getStderr).putStr (s!"error: {usage.summary}\n\n" ++ usageHint)
  return status.toUInt32

end StoreLint

def main (arguments : List String) : IO UInt32 :=
  match StoreLint.Command.parse arguments with
  | .error usage => StoreLint.explainUsage usage
  | .ok command => StoreLint.runHere command
