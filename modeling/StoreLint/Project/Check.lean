import StoreLint.Project.ConfigSearch
import StoreLint.Project.Scan
import StoreLint.Report.Issue
import StoreLint.Rule.Lint

/-!
# Checking a project

Every file is checked by itself: a file that can be read and parsed has the issues of
its diagnostics, and any other file has one issue.
-/

namespace StoreLint

def ParsedSource.issue (parsed : ParsedSource) (file : String) (diagnostic : Diagnostic) : Issue :=
  .lint {
    file
    place := parsed.place diagnostic.span.lo
    rule := diagnostic.rule
    messageId := diagnostic.messageId
    message := diagnostic.message
    severity := diagnostic.severity }

/-- Why a file cannot be checked. -/
inductive SourceError where
  | undecodable
  | unparsable (file : String)
deriving DecidableEq, Repr, Inhabited

/-- The text that describes an error.  The grammar gives no reason, so a star stands for it. -/
def SourceError.message : SourceError → String
  | .undecodable => "Failed to read file: stream did not contain valid UTF-8"
  | .unparsable file => s!"Failed to parse {file}: *"

def FileSystem.parseFile (system : FileSystem) (file : String) :
    Except SourceError ParsedSource :=
  match system.content? file with
  | some (.text code) =>
      match ParsedSource.parse file code with
      | some parsed => .ok parsed
      | none => .error (.unparsable file)
  | _ => .error .undecodable

/-- What the check of one file gives. -/
structure FileCheck where
  file : String
  issues : List Issue
  defects : List Defect
  /-- Why the file could not be checked. -/
  failure : Option SourceError
deriving Inhabited

def FileSystem.checkFile (system : FileSystem) (sections : DocSections) (rules : List Rule)
    (file : String) : FileCheck :=
  match system.parseFile file with
  | .error error =>
      { file, issues := [.parseError file error.message], defects := [], failure := some error }
  | .ok parsed =>
      let result := parsed.lint file sections rules
      { file, issues := result.diagnostics.map (parsed.issue file), defects := result.defects,
        failure := none }

def Config.scanRequest (config : Config) (base : String) : ScanRequest :=
  { base
    includes := config.includes
    ignores := config.ignores
    ignoreTestFiles := config.ignoreTestFiles }

/-- What the check of a project gives. -/
structure ProjectCheck where
  loaded : LoadedConfig
  scan : ScanResult
  checks : List FileCheck
deriving Inhabited

/-- The issues of a project in their order, with their numbers. -/
def ProjectCheck.result (check : ProjectCheck) : CheckResult :=
  CheckResult.finish (check.checks.flatMap FileCheck.issues) check.scan.files.length

/-- Checks the project below a directory with the selected rules. -/
def FileSystem.checkProject (system : FileSystem) (base : String) (rules : List Rule) :
    Except LoadError ProjectCheck := do
  let loaded ← system.loadConfig base
  let scan := (loaded.config.scanRequest base).scan system
  let checks := scan.files.map (system.checkFile loaded.config.sections (Rule.selected rules))
  return { loaded, scan, checks }

end StoreLint
