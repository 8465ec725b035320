import StoreLint.Rule.RequireDoc
import StoreLint.Rule.RootAssets
import StoreLint.Rule.RootCalls
import StoreLint.Scope.Build
import StoreLint.Source.Parsed

/-!
# Linting a file

The targets of a file are the calls and the entries of object literals, in visiting
order.  Every rule is asked about every target it selects, and each of these checks
stands alone: it either contributes its diagnostics or, if it fails, one defect.
-/

namespace StoreLint

/-- What rules look at. -/
inductive Target where
  | entry (placed : PlacedEntry)
  | call (span : Span) (callee : Node) (args : List Node)
deriving Inhabited

/-- The targets that a node by itself gives rise to. -/
def Node.targets : Node → List Target
  | .objectLiteral _ entries => (Node.placedEntries entries).map Target.entry
  | .call span callee args _ => [.call span callee args]
  | _ => []

def targetsOf (items : List Node) : List Target := (Node.nodesOf .whole items).flatMap Node.targets

def Rule.selects (rule : Rule) : Target → Bool
  | .entry _ => rule.selectsEntries
  | .call _ _ _ => rule.selectsCalls

/-- What a check of one target can look at besides the target. -/
structure CheckContext where
  sections : DocSections
  tree : ScopeTree
  comments : CommentIndex
deriving Inhabited

/-- The diagnostics of one rule at one target. -/
def Rule.check (context : CheckContext) (rule : Rule) (target : Target) :
    Except AnalysisError (List Diagnostic) :=
  match rule, target with
  | .requireDoc, .entry placed => context.sections.check context.tree context.comments placed
  | .rootAssets, .entry placed => checkRootAssets context.tree placed
  | .rootCalls, .call span callee args => checkRootCall span callee args
  | _, _ => .ok []

/-- A check that could not be carried out. -/
structure Defect where
  file : String
  rule : Rule
  error : AnalysisError
deriving DecidableEq, Repr, Inhabited

/-- What linting a file gives. -/
structure LintResult where
  diagnostics : List Diagnostic
  defects : List Defect
deriving Inhabited

/-- The checks of a module: each target with each of the rules that select it. -/
def checksOf (rules : List Rule) (items : List Node) : List (Target × Rule) :=
  (targetsOf items).flatMap fun target =>
    (rules.filter fun rule => rule.selects target).map fun rule => (target, rule)

/-- The diagnostics of a check, none if it failed. -/
def diagnosticsOf (context : CheckContext) (check : Target × Rule) : List Diagnostic :=
  match check.2.check context check.1 with
  | .ok diagnostics => diagnostics
  | .error _ => []

def defectOf? (context : CheckContext) (file : String) (check : Target × Rule) : Option Defect :=
  match check.2.check context check.1 with
  | .ok _ => none
  | .error error => some { file, rule := check.2, error }

def ParsedSource.checkContext (parsed : ParsedSource) (sections : DocSections) : CheckContext :=
  { sections
    tree := ScopeTree.build parsed.span parsed.items
    comments := parsed.commentIndex }

def ParsedSource.lint (parsed : ParsedSource) (file : String) (sections : DocSections)
    (rules : List Rule) : LintResult :=
  let context := parsed.checkContext sections
  let checks := checksOf rules parsed.items
  { diagnostics := checks.flatMap (diagnosticsOf context)
    defects := checks.filterMap (defectOf? context file) }

end StoreLint
