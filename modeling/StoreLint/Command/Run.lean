import StoreLint.Command.Help
import StoreLint.Project.Check
import StoreLint.Report.Schema
import StoreLint.Report.Text

/-!
# Running a command

A command reads the files of a project, writes to two streams and ends with a status:
zero, one if a check found errors, and two if it could not run.  Only `init` changes a
file.
-/

namespace StoreLint

/-- What running a command leaves behind. -/
structure Outcome where
  status : Nat
  output : String := ""
  /-- The text on the stream for errors. -/
  errors : String := ""
  /-- The files of the project afterwards. -/
  system : FileSystem
deriving Inhabited

/-- The directory that is checked if no other is named. -/
def defaultRoot : String := "."

namespace ProjectCheck

/-- The line about paths that could not be walked. -/
def skippedLine (skipped : Nat) (verbose : Bool) : String :=
  if skipped == 0 then ""
  else
    let hint := if verbose then "" else " (use -v for details)"
    s!"Warning: {skipped} path(s) skipped due to access errors{hint}\n"

/-- The lines about what happened before the files were checked. -/
def preparationLines (check : ProjectCheck) (color verbose : Bool) : String :=
  let note :=
    if verbose && !check.loaded.fromFile then
      s!"Note: No {configFileName} found, using default configuration\n"
    else ""
  let warnings :=
    if verbose then
      check.scan.warnings.map fun warning =>
        Style.warningLabel.apply color "warning:" ++ " " ++ warning.message ++ "\n"
    else []
  note ++ String.join warnings ++ skippedLine check.scan.skipped verbose

/-- The line about a file that could not be checked. -/
def failureLine (verbose : Bool) (check : FileCheck) : String :=
  match check.failure with
  | some error => if verbose then s!"Warning: {check.file} - {error.message}\n" else ""
  | none => ""

def errorText (check : ProjectCheck) (color verbose : Bool) : String :=
  check.preparationLines color verbose ++
    String.join (check.checks.map (failureLine verbose)) ++
    String.join ((check.checks.flatMap FileCheck.defects).map (Report.defect color)) ++
    Report.parseWarning color check.result.parseErrors verbose

def outputText (check : ProjectCheck) (color : Bool) : String :=
  let result := check.result
  if result.issues.isEmpty then Report.success color result.files
  else Report.text color result.issues

def status (check : ProjectCheck) : Nat := if 0 < check.result.errors then 1 else 0

end ProjectCheck

def Outcome.failed (system : FileSystem) (message : String) : Outcome :=
  { status := 2, errors := s!"Error: {message}\n", system }

def runCheck (system : FileSystem) (color : Bool) (options : CheckOptions) : Outcome :=
  match system.checkProject (options.sourceRoot.getD defaultRoot) options.rules with
  | .error error => .failed system error.message
  | .ok check =>
      { status := check.status
        output := check.outputText color
        errors := check.errorText color options.verbose
        system }

/-- Writes the default configuration, unless there is one. -/
def runInit (system : FileSystem) (color : Bool) : Outcome :=
  let path := Path.join defaultRoot configFileName
  if system.holds path then .failed system (configFileName ++ " already exists")
  else
    let config : Config := {}
    { status := 0
      output := Report.created color
      system := system.writeFile path (.text config.toJson.pretty) }

def runRules (system : FileSystem) (color json : Bool) : Outcome :=
  { status := 0
    output := if json then rulesJson.pretty ++ "\n" else Report.rulesText color
    system }

/-- Runs a command; without one the program tells what it can do. -/
def Command.run (system : FileSystem) (color : Bool) : Option Command → Outcome
  | none => { status := 0, output := HelpTopic.program.text, system }
  | some (.check options) => runCheck system color options
  | some .init => runInit system color
  | some (.rules json) => runRules system color json

/-- The status and the text that end a command line without a command to run. -/
def Usage.report : Usage → Nat × Option String
  | .displayHelp topic => (0, some topic.text)
  | .displayVersion => (0, some versionText)
  | _ => (2, none)

end StoreLint
