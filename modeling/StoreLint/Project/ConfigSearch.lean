import StoreLint.Config.Decode
import StoreLint.Project.FileSystem

/-!
# The configuration of a directory

The configuration file is looked for in a directory and then in the directories that
its path goes through, up to one that holds a repository.
-/

namespace StoreLint

/-- The name of the directory that marks the root of a repository. -/
def repositoryMark : String := ".git"

/-- Looks for the configuration file from a directory on, in at most `bound` directories.  Whether a
path names something is told by `holds`. -/
def searchConfigWithin (holds : String → Bool) : (bound : Nat) → (start : String) → Option String
  | 0, _ => none
  | bound + 1, start =>
      let path := Path.join start configFileName
      if holds path then some path
      else if holds (Path.join start repositoryMark) then none
      else
        match Path.parent? start with
        | none => none
        | some parent => searchConfigWithin holds bound parent

/-- Looks for the configuration file from a directory on.  A path goes through fewer directories
than it has characters. -/
def searchConfig (holds : String → Bool) (start : String) : Option String :=
  searchConfigWithin holds (start.length + 2) start

/-- The configuration file that applies to a directory. -/
def FileSystem.findConfig (system : FileSystem) (start : String) : Option String :=
  searchConfig system.holds start

/-- Why the configuration of a directory cannot be used. -/
inductive LoadError where
  | unreadable (path : String)
  | unparsable (path : String) (error : ConfigError)
  | invalid (found : InvalidPattern)
deriving DecidableEq, Repr, Inhabited

def LoadError.message : LoadError → String
  | .unreadable path => s!"Failed to read config file: {Quoted.path path}"
  | .unparsable path _ => s!"Failed to parse config file: {Quoted.path path}"
  | .invalid found => found.summary

/-- A configuration and whether it comes from a file. -/
structure LoadedConfig where
  config : Config
  fromFile : Bool
deriving Repr, Inhabited

def FileSystem.readConfig (system : FileSystem) (path : String) : Except LoadError Config :=
  match system.content? path with
  | some (.text text) =>
      match Config.parse text with
      | .error error => .error (.unparsable path error)
      | .ok config =>
          match config.invalid? with
          | some found => .error (.invalid found)
          | none => .ok config
  | _ => .error (.unreadable path)

/-- The configuration that applies to a directory, which is the default one without a file. -/
def FileSystem.loadConfig (system : FileSystem) (start : String) :
    Except LoadError LoadedConfig :=
  match system.findConfig start with
  | none => .ok { config := {}, fromFile := false }
  | some path => do
      let config ← system.readConfig path
      return { config, fromFile := true }

end StoreLint
