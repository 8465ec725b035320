import StoreLint.Rule.Basic
import StoreLint.Source.Place

/-!
# Issues

An issue is a diagnostic at its place in a file, or a file that cannot be read or
parsed.  Issues are ordered by file, line, column, rule and message; an issue of a
whole file comes before the others of that file.
-/

namespace StoreLint

/-- A diagnostic at its place in a file. -/
structure LintIssue where
  file : String
  place : Place
  rule : Rule
  messageId : String
  message : String
  severity : Severity
deriving DecidableEq, Repr, Inhabited

/-- An issue of a project. -/
inductive Issue where
  | lint (issue : LintIssue)
  /-- The file cannot be read or parsed. -/
  | parseError (file error : String)
deriving DecidableEq, Repr, Inhabited

namespace Issue

def file : Issue → String
  | .lint issue => issue.file
  | .parseError file _ => file

/-- The line of the issue, zero for a whole file. -/
def line : Issue → Nat
  | .lint issue => issue.place.line
  | .parseError _ _ => 0

/-- The column of the issue, zero for a whole file. -/
def column : Issue → Nat
  | .lint issue => issue.place.column
  | .parseError _ _ => 0

def rule : Issue → Rule
  | .lint issue => issue.rule
  | .parseError _ _ => .parseError

def message : Issue → String
  | .lint issue => issue.message
  | .parseError _ error => error

def severity : Issue → Severity
  | .lint issue => issue.severity
  | .parseError _ _ => .error

def isParseError : Issue → Bool
  | .lint _ => false
  | .parseError _ _ => true

def order (left right : Issue) : Ordering :=
  (compare left.file right.file).then <|
    (compare left.line right.line).then <|
      (compare left.column right.column).then <|
        (compare left.rule.rank right.rule.rank).then <| compare left.message right.message

/-- Issues in their order; equal ones stay as they are. -/
def sorted (issues : List Issue) : List Issue :=
  issues.mergeSort fun left right => (left.order right).isLE

def count (severity : Severity) (issues : List Issue) : Nat :=
  issues.countP fun issue => issue.severity == severity

end Issue

/-- The issues of a project in their order, with their numbers. -/
structure CheckResult where
  issues : List Issue
  errors : Nat
  warnings : Nat
  parseErrors : Nat
  files : Nat
deriving Repr, Inhabited

/-- The result of a check that found the issues in the given number of files. -/
def CheckResult.finish (issues : List Issue) (files : Nat) : CheckResult :=
  { issues := Issue.sorted issues
    errors := Issue.count .error issues
    warnings := Issue.count .warning issues
    parseErrors := issues.countP Issue.isParseError
    files }

end StoreLint
