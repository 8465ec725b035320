import StoreLint.Scope.Resolve
import StoreLint.Store.Entry
import StoreLint.Text.Template

/-!
# Rules and diagnostics

A rule has an identifier, a severity and message templates.  A diagnostic is a
message at a span; it can only be made at a span that belongs to a file and with a
message that the rule has.
-/

namespace StoreLint

/-- How much an issue matters. -/
inductive Severity where
  | error
  | warning
deriving DecidableEq, Repr, Inhabited

def Severity.name : Severity → String
  | .error => "error"
  | .warning => "warning"

/-- The origins of issues: three rules about sources, and the rule that sources can be parsed. -/
inductive Rule where
  | requireDoc
  | rootAssets
  | rootCalls
  | parseError
deriving DecidableEq, Repr, Inhabited

namespace Rule

def id : Rule → String
  | .requireDoc => "require-jsdoc"
  | .rootAssets => "no-root-store-assets"
  | .rootCalls => "no-root-store-calls"
  | .parseError => "parse-error"

/-- The place of a rule in the order of rules. -/
def rank : Rule → Nat
  | .requireDoc => 0
  | .rootAssets => 1
  | .rootCalls => 2
  | .parseError => 3

/-- The rules that check a source, in the order in which they run. -/
def checks : List Rule := [.requireDoc, .rootAssets, .rootCalls]

def ofId? (id : String) : Option Rule :=
  [requireDoc, rootAssets, rootCalls, parseError].find? fun rule => rule.id == id

def severity : Rule → Severity
  | .requireDoc => .warning
  | _ => .error

def description : Rule → String
  | .requireDoc => "Require JSDoc comments at Vue props, and Vuex actions and state."
  | .rootAssets => "Prevent from using rootState and rootGetters"
  | .rootCalls => "Prevent from dispatching actions or commiting mutations in the global namespace"
  | .parseError => ""

/-- The message templates of a rule by identifier. -/
def messages : Rule → List (String × String)
  | .requireDoc => [("missingJsdoc", "Missing JSDoc comment.")]
  | .rootAssets => [("avoidRootAssets", "Don't use \x7b\x7b assetName \x7d\x7d")]
  | .rootCalls =>
      [("avoidRootCalls", "Don't \x7b\x7b actionName \x7d\x7d in the global namespace.")]
  | .parseError => []

/-- The template of the message with the identifier. -/
def message? (rule : Rule) (messageId : String) : Option String :=
  (rule.messages.find? fun message => message.1 == messageId).map Prod.snd

/-- Whether a rule looks at the entries of object literals. -/
def selectsEntries : Rule → Bool
  | .requireDoc | .rootAssets => true
  | _ => false

def selectsCalls : Rule → Bool
  | .rootCalls => true
  | _ => false

/-- The rules that run when those in the list are selected; an empty list selects all. -/
def selected (rules : List Rule) : List Rule :=
  checks.filter fun rule => rules.isEmpty || rules.contains rule

end Rule

/-- A violation of a rule. -/
structure Diagnostic where
  rule : Rule
  messageId : String
  message : String
  data : Template.Values
  span : Span
  severity : Severity
deriving DecidableEq, Repr, Inhabited

def Rule.report (rule : Rule) (span : Span) (messageId : String) (data : Template.Values) :
    Except AnalysisError Diagnostic :=
  if span.isDummy then .error .missingAnchor
  else
    match rule.message? messageId with
    | none => .error (.unknownMessage messageId)
    | some template =>
        .ok { rule, messageId, message := Template.fill template data, data, span,
              severity := rule.severity }

/-- The diagnostic of a rule at the key of an entry. -/
def Rule.reportKey (rule : Rule) (entry : Node) (messageId : String) (data : Template.Values) :
    Except AnalysisError Diagnostic :=
  match entry.entryKeySpan? with
  | some span => rule.report span messageId data
  | none => .error .missingAnchor

end StoreLint
