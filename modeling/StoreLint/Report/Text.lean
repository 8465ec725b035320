import StoreLint.Config.Basic
import StoreLint.Report.Issue
import StoreLint.Report.Style
import StoreLint.Rule.Lint
import StoreLint.Text.LineWidth

/-!
# Report texts

What a reader sees of issues, defects and rules.  An issue is shown with the line it
stands in and a caret below its column, and the line numbers of a report are aligned.
-/

namespace StoreLint.Report

def successMark : String := "✓"

def failureMark : String := "✘"

def severityColor : Severity → Color
  | .error => .red
  | .warning => .yellow

/-- The width of the line numbers of a report. -/
def lineNumberWidth (issues : List Issue) : Nat :=
  let lines := issues.filterMap fun issue => if issue.isParseError then none else some issue.line
  match lines.max? with
  | some line => (toString line).length
  | none => 1

/-- The columns in front of the caret: the width of the characters before the column. -/
def caretPadding (place : Place) : Nat :=
  LineWidth.ofText (place.sourceLine.toList.take (place.column - 1))

def heading (color : Bool) (issue : Issue) : String :=
  let label := Style.apply { bold := true, color := some (severityColor issue.severity) } color
    issue.severity.name
  let rule := Style.apply { dimmed := true, color := some .cyan } color issue.rule.id
  label ++ ": \"" ++ issue.message ++ "\"  " ++ rule ++ "\n"

def pointer (color : Bool) (text : String) : String :=
  "  " ++ (Style.colored .blue).apply color "-->" ++ " " ++ text ++ "\n"

/-- The source line of an issue, with the caret below it. -/
def excerpt (color : Bool) (width : Nat) (issue : LintIssue) : String :=
  let bar := (Style.colored .blue).apply color "|"
  let number :=
    (Style.colored .blue).apply color (alignRight width (toString issue.place.line))
  let caret := (Style.colored (severityColor issue.severity)).apply color "^"
  spaces width ++ " " ++ bar ++ "\n" ++
    number ++ " " ++ bar ++ " " ++ issue.place.sourceLine ++ "\n" ++
    spaces width ++ " " ++ bar ++ " " ++ spaces (caretPadding issue.place) ++ caret ++ "\n"

def issueText (color : Bool) (width : Nat) (issue : Issue) : String :=
  let body :=
    match issue with
    | .lint found =>
        pointer color s!"{found.file}:{found.place.line}:{found.place.column}" ++
          excerpt color width found
    | .parseError file _ => pointer color file
  heading color issue ++ body ++ "\n"

/-- A word for one thing, or for several. -/
def plural (count : Nat) (word : String) : String := if count == 1 then word else word ++ "s"

def summary (color : Bool) (issues : List Issue) : String :=
  let errors := Issue.count .error issues
  let warnings := Issue.count .warning issues
  let mark := (Style.colored .red).apply color failureMark
  let errorWord := (Style.colored .red).apply color (plural errors "error")
  let warningWord := (Style.colored .yellow).apply color (plural warnings "warning")
  if errors + warnings == 0 then ""
  else
    s!"\n{mark} {errors + warnings} problems ({errors} {errorWord}, {warnings} {warningWord})\n"

/-- The report of issues, in their order; nothing if there are none. -/
def text (color : Bool) (issues : List Issue) : String :=
  if issues.isEmpty then ""
  else
    let sorted := Issue.sorted issues
    let width := lineNumberWidth sorted
    String.join (sorted.map (issueText color width)) ++ summary color sorted

def success (color : Bool) (files : Nat) : String :=
  let green := (Style.colored .green).apply color
  let line := s!"Checked {files} source " ++ plural files "file" ++ " - no issues found"
  green successMark ++ " " ++ green line ++ "\n"

/-- The warning about files that cannot be parsed; details are shown where a report is verbose. -/
def parseWarning (color : Bool) (count : Nat) (verbose : Bool) : String :=
  if count == 0 || verbose then ""
  else
    let label := Style.warningLabel.apply color "warning:"
    let option := (Style.colored .cyan).apply color "-v"
    s!"{label} {count} file(s) could not be parsed (use {option} for details)\n"

def defect (color : Bool) (found : Defect) : String :=
  let label := Style.warningLabel.apply color "warning:"
  let place := Style.apply { dimmed := true } color "at file:"
  let rule := (Style.colored .cyan).apply color found.rule.id
  s!"{label} {found.error.message}\n  {place} {found.file} ({rule})\n"

def ruleText (color : Bool) (rule : Rule) : String :=
  let id := Style.apply { bold := true } color rule.id
  let severity := Style.apply { dimmed := true } color ("(" ++ rule.severity.name ++ ")")
  let messages := rule.messages.map fun message =>
    "  " ++ (Style.colored .blue).apply color "=" ++ " " ++
      (Style.colored .cyan).apply color message.1 ++ ": \"" ++ message.2 ++ "\"\n"
  id ++ "  " ++ severity ++ "\n  " ++ rule.description ++ "\n" ++ String.join messages ++ "\n"

/-- The text about all rules that check a source. -/
def rulesText (color : Bool) : String := String.join (Rule.checks.map (ruleText color))

/-- The text about a configuration file that has been created. -/
def created (color : Bool) : String :=
  let green := (Style.colored .green).apply color
  green successMark ++ " " ++ green ("Created " ++ configFileName) ++ "\n"

end StoreLint.Report
