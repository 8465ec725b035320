import StoreLint.Proofs.Rule.Documentation
import StoreLint.Proofs.Tree.Parts

/-!
# Checks are atomic and isolated

Here checks are programs that stage one diagnostic after the other and may fail at any
point with some diagnostics staged already.  A traversal of the module runs them one by
one: what a check has staged is kept when it ends well, and when it fails one defect is
recorded in place of it.

`Staging.Carries` says that a program does what a check of the library says: it gives the
same answer, whatever was staged before, and if the answer is a success it has staged the
diagnostics of the check.  It holds of all rules (`Rule.carries_stage`), and from it
`lint_eq_of_traversal` derives that the traversal comes to the result of `lint` and that
each check contributes to it by itself.
-/

namespace StoreLint

/-- A program that stages diagnostics and can fail; what was staged before the failure is part of
the outcome. -/
abbrev Staging (α : Type) : Type := ExceptT AnalysisError (StateM (List Diagnostic)) α

namespace Staging

/-- An analysis, which stages nothing. -/
def ofExcept {α : Type} (outcome : Except AnalysisError α) : Staging α := fun staged =>
  (outcome, staged)

def report (made : Except AnalysisError Diagnostic) : Staging Unit := do
  let diagnostic ← ofExcept made
  modify fun staged => staged ++ [diagnostic]

end Staging

-- The checks as programs.  Each has the shape of the check it stands for, with a report in place
-- of the diagnostics that the check returns and a loop in place of the lists it joins.

def stageDocumented (comments : CommentIndex) (entry : Node) : Staging Unit :=
  if hasLeadingDoc (comments.before entry.docAnchor) then pure ()
  else Staging.report (Rule.requireDoc.reportKey entry "missingJsdoc" [])

def DocSections.stage (sections : DocSections) (tree : ScopeTree) (comments : CommentIndex)
    (placed : PlacedEntry) : Staging Unit :=
  if sections.appliesTo placed then do
    let children ← Staging.ofExcept (tree.childEntries placed.entry)
    children.forM (stageDocumented comments)
  else pure ()

def stageAssets (functionOf : Node → Except AnalysisError (Option Node))
    (assetsOf : Node → List AssetSite) (entry : Node) : Staging Unit := do
  match ← Staging.ofExcept (functionOf entry) with
  | none => pure ()
  | some function => (assetsOf function).forM fun site => Staging.report site.report

def stageRootAssets (tree : ScopeTree) (placed : PlacedEntry) : Staging Unit :=
  if placed.isGetters then do
    let children ← Staging.ofExcept (tree.childEntries placed.entry)
    children.forM (stageAssets tree.functionOfEntry Node.getterAssets)
  else if placed.isActions then do
    let children ← Staging.ofExcept (tree.childEntries placed.entry)
    children.forM (stageAssets tree.actionHandler Node.actionAssets)
  else pure ()

def stageRootCall (span : Span) (callee : Node) (args : List Node) : Staging Unit :=
  match callee.calleeName? with
  | none => pure ()
  | some name =>
      if storeCalls.contains name && ((args.drop 1).take 2).any Node.isRootOption then
        Staging.report (Rule.rootCalls.report span "avoidRootCalls" [("actionName", name)])
      else pure ()

def Rule.stage (context : CheckContext) (rule : Rule) (target : Target) : Staging Unit :=
  match rule, target with
  | .requireDoc, .entry placed => context.sections.stage context.tree context.comments placed
  | .rootAssets, .entry placed => stageRootAssets context.tree placed
  | .rootCalls, .call span callee args => stageRootCall span callee args
  | _, _ => pure ()

namespace Staging

theorem bind_of_ok {α β : Type} {program : Staging α} {next : α → Staging β} {value : α}
    {staged later : List Diagnostic} (runs : program staged = (.ok value, later)) :
    (program >>= next) staged = next value later := by
  change StateT.bind program (ExceptT.bindCont next) staged = next value later
  rw [StateT.bind, runs]
  rfl

theorem bind_of_error {α β : Type} {program : Staging α} {next : α → Staging β}
    {error : AnalysisError} {staged later : List Diagnostic}
    (runs : program staged = (.error error, later)) :
    (program >>= next) staged = (.error error, later) := by
  change StateT.bind program (ExceptT.bindCont next) staged = (.error error, later)
  rw [StateT.bind, runs]
  rfl

/-- The program gives the answer of the check, whatever was staged before.  It only adds to what
was staged: on success the diagnostics of the check. -/
def Carries (program : Staging Unit) (check : Except AnalysisError (List Diagnostic)) : Prop :=
  ∃ added, (∀ diagnostics, check = .ok diagnostics → added = diagnostics) ∧
    ∀ staged, program staged = (check.map fun _ => (), staged ++ added)

theorem carries_pure : Carries (pure ()) (.ok []) := by
  refine ⟨[], ?_, ?_⟩
  · intro diagnostics isOk
    exact Except.ok.inj isOk
  · intro staged
    rw [List.append_nil]
    rfl

theorem carries_error {program : Staging Unit} {error : AnalysisError}
    (fails : ∀ staged, program staged = (.error error, staged)) :
    Carries program (.error error) := by
  refine ⟨[], ?_, ?_⟩
  · intro diagnostics isOk
    cases isOk
  · intro staged
    rw [List.append_nil]
    exact fails staged

theorem carries_report (made : Except AnalysisError Diagnostic) :
    Carries (report made) (do
      let diagnostic ← made
      return [diagnostic]) := by
  cases made with
  | error error => exact carries_error fun _ => rfl
  | ok diagnostic =>
      refine ⟨[diagnostic], ?_, ?_⟩
      · intro diagnostics isOk
        exact Except.ok.inj isOk
      · intro staged
        rfl

theorem carries_ofExcept_bind {α : Type} (outcome : Except AnalysisError α)
    {program : α → Staging Unit} {check : α → Except AnalysisError (List Diagnostic)}
    (each : ∀ value, Carries (program value) (check value)) :
    Carries (ofExcept outcome >>= program) (outcome >>= check) := by
  cases outcome with
  | error error => exact carries_error fun _ => rfl
  | ok value => exact each value

/-- One program after the other: the second runs only if the first ends well, with what the first
has staged. -/
theorem Carries.seq {first second : Staging Unit}
    {firstCheck secondCheck : Except AnalysisError (List Diagnostic)}
    (carriesFirst : Carries first firstCheck) (carriesSecond : Carries second secondCheck) :
    Carries (do first; second) (do
      let found ← firstCheck
      let rest ← secondCheck
      return found ++ rest) := by
  obtain ⟨added, kept, runs⟩ := carriesFirst
  obtain ⟨further, keptFurther, runsFurther⟩ := carriesSecond
  cases firstCheck with
  | error error =>
      refine ⟨added, ?_, ?_⟩
      · intro diagnostics isOk
        cases isOk
      · intro staged
        exact bind_of_error (runs staged)
  | ok found =>
      rw [kept found rfl] at runs
      refine ⟨found ++ further, ?_, ?_⟩
      · intro diagnostics isOk
        obtain ⟨_, isFirst, later⟩ := bind_eq_ok_iff.mp isOk
        obtain ⟨rest, isRest, same⟩ := bind_eq_ok_iff.mp later
        cases isFirst
        rw [keptFurther rest isRest]
        exact Except.ok.inj same
      · intro staged
        rw [bind_of_ok (runs staged), runsFurther, List.append_assoc]
        cases secondCheck <;> rfl

theorem flatten_mapM_cons {α β ε : Type} (check : α → Except ε (List β)) (item : α)
    (items : List α) :
    (do
      let found ← (item :: items).mapM check
      return found.flatten) =
    (do
      let found ← check item
      let rest ← (do
        let found ← items.mapM check
        return found.flatten)
      return found ++ rest) := by
  rw [List.mapM_cons]
  cases check item with
  | error error => rfl
  | ok found =>
      cases items.mapM check with
      | error error => rfl
      | ok others => rfl

/-- A loop over programs: it stops at the first one that fails. -/
theorem carries_forM {α : Type} {items : List α} {program : α → Staging Unit}
    {check : α → Except AnalysisError (List Diagnostic)}
    (each : ∀ item, Carries (program item) (check item)) :
    Carries (items.forM program) (do
      let found ← items.mapM check
      return found.flatten) := by
  induction items with
  | nil => exact carries_pure
  | cons item items induction =>
      rw [flatten_mapM_cons]
      exact (each item).seq induction

theorem carries_forM_report {α : Type} (items : List α)
    (made : α → Except AnalysisError Diagnostic) :
    Carries (items.forM fun item => report (made item)) (items.mapM made) := by
  have looped := @carries_forM α items _ _ fun item => carries_report (made item)
  have same : (do
      let found ← items.mapM fun item => (do
        let diagnostic ← made item
        return [diagnostic])
      return found.flatten) = items.mapM made := by
    clear looped
    induction items with
    | nil => rfl
    | cons item items induction =>
        rw [flatten_mapM_cons, induction, List.mapM_cons]
        cases made item with
        | error error => rfl
        | ok diagnostic => rfl
  rw [← same]
  exact looped

end Staging

open Staging

theorem carries_stageDocumented (comments : CommentIndex) (entry : Node) :
    Carries (stageDocumented comments entry) (checkDocumented comments entry) := by
  unfold stageDocumented checkDocumented
  split
  · exact carries_pure
  · exact carries_report _

theorem DocSections.carries_stage (sections : DocSections) (tree : ScopeTree)
    (comments : CommentIndex) (placed : PlacedEntry) :
    Carries (sections.stage tree comments placed) (sections.check tree comments placed) := by
  unfold DocSections.stage DocSections.check
  split
  · apply carries_ofExcept_bind
    intro children
    exact carries_forM (carries_stageDocumented comments)
  · exact carries_pure

theorem carries_stageAssets (functionOf : Node → Except AnalysisError (Option Node))
    (assetsOf : Node → List AssetSite) (entry : Node) :
    Carries (stageAssets functionOf assetsOf entry) (reportAssets functionOf assetsOf entry) := by
  unfold stageAssets reportAssets
  apply carries_ofExcept_bind
  intro function
  cases function with
  | none => exact carries_pure
  | some function => exact carries_forM_report _ _

theorem carries_stageRootAssets (tree : ScopeTree) (placed : PlacedEntry) :
    Carries (stageRootAssets tree placed) (checkRootAssets tree placed) := by
  unfold stageRootAssets checkRootAssets
  split
  · apply carries_ofExcept_bind
    intro children
    exact carries_forM (carries_stageAssets _ _)
  · split
    · apply carries_ofExcept_bind
      intro children
      exact carries_forM (carries_stageAssets _ _)
    · exact carries_pure

theorem carries_stageRootCall (span : Span) (callee : Node) (args : List Node) :
    Carries (stageRootCall span callee args) (checkRootCall span callee args) := by
  unfold stageRootCall checkRootCall
  cases callee.calleeName? with
  | none => exact carries_pure
  | some name =>
      dsimp only
      split
      · exact carries_report _
      · exact carries_pure

/-- Each rule stages what its check says. -/
theorem Rule.carries_stage (context : CheckContext) (rule : Rule) (target : Target) :
    Carries (rule.stage context target) (rule.check context target) := by
  cases target with
  | entry placed =>
      cases rule with
      | requireDoc => exact DocSections.carries_stage _ _ _ placed
      | rootAssets => exact carries_stageRootAssets _ placed
      | rootCalls => exact carries_pure
      | parseError => exact carries_pure
  | call span callee args =>
      cases rule with
      | rootCalls => exact carries_stageRootCall span callee args
      | requireDoc => exact carries_pure
      | rootAssets => exact carries_pure
      | parseError => exact carries_pure

namespace LintResult

def empty : LintResult := ⟨[], []⟩

def append (first second : LintResult) : LintResult :=
  ⟨first.diagnostics ++ second.diagnostics, first.defects ++ second.defects⟩

def concat (results : List LintResult) : LintResult :=
  ⟨results.flatMap diagnostics, results.flatMap defects⟩

theorem append_empty (result : LintResult) : result.append empty = result := by
  simp [append, empty]

theorem empty_append (result : LintResult) : empty.append result = result := by
  simp [append, empty]

theorem append_assoc (first second third : LintResult) :
    (first.append second).append third = first.append (second.append third) := by
  simp [append]

theorem concat_cons (first : LintResult) (rest : List LintResult) :
    concat (first :: rest) = first.append (concat rest) := by
  simp [append, concat]

/-- A loop that adds something in each round adds all of it. -/
theorem foldl_eq_append_concat {α : Type} {step : LintResult → α → LintResult}
    {added : α → LintResult} (steps : ∀ before item, step before item = before.append (added item))
    (items : List α) (before : LintResult) :
    items.foldl step before = before.append (concat (items.map added)) := by
  induction items generalizing before with
  | nil => exact (append_empty before).symm
  | cons item items induction =>
      rw [List.foldl_cons, induction, steps, append_assoc, List.map_cons, concat_cons]

end LintResult

/-- Visits a node and acts on targets on the way: on its own targets first, and then on those of
its parts. -/
def Node.visitTargets {σ : Type} (act : σ → Target → σ) (state : σ) (node : Node) : σ :=
  (node.parts .whole).attach.foldl (fun state child => Node.visitTargets act state child.1)
    (node.targets.foldl act state)
termination_by sizeOf node
decreasing_by exact Node.sizeOf_lt_of_mem_parts child.2

section Visits

variable {σ : Type} {act : σ → Target → σ}

theorem foldl_targetsOf {nodes : List Node} {visit : σ → Node → σ}
    (visits : ∀ node ∈ nodes, ∀ state, visit state node = (targetsOf [node]).foldl act state)
    (state : σ) : nodes.foldl visit state = (targetsOf nodes).foldl act state := by
  induction nodes generalizing state with
  | nil => rfl
  | cons node nodes induction =>
      have rest := induction fun other isOther => visits other (List.mem_cons_of_mem _ isOther)
      have together : targetsOf (node :: nodes) = targetsOf [node] ++ targetsOf nodes := by
        rw [targetsOf, Node.nodesOf_cons_eq_append, List.flatMap_append, targetsOf, targetsOf]
      rw [List.foldl_cons, rest, visits node (List.mem_cons_self ..), together, List.foldl_append]

theorem visitTargets_eq_foldl (state : σ) (node : Node) :
    node.visitTargets act state = (targetsOf [node]).foldl act state := by
  induction node using Node.inductionOnParts .whole generalizing state with
  | step node induction =>
      have parts := foldl_targetsOf fun child isChild state => induction child isChild state
      have own : targetsOf [node] = node.targets ++ targetsOf (node.parts .whole) := by
        simp only [targetsOf, Node.nodesOf_cons, Node.nodesOf_nil, List.append_nil,
          List.flatMap_cons]
      rw [Node.visitTargets, own, List.foldl_append, ← parts]
      exact List.foldl_attach

/-- The visit of a module acts on its targets in their order. -/
theorem foldl_visitTargets (items : List Node) (state : σ) :
    items.foldl (Node.visitTargets act) state = (targetsOf items).foldl act state :=
  foldl_targetsOf (fun node _ state => visitTargets_eq_foldl state node) state

end Visits

section Traversal

variable (context : CheckContext) (file : String) (rules : List Rule)

/-- What a check that is run by itself contributes: all it has staged if it ends well, and one
defect if it fails. -/
def contribution (check : Target × Rule) : LintResult :=
  match (check.2.stage context check.1) [] with
  | (.ok _, staged) => ⟨staged, []⟩
  | (.error error, _) => ⟨[], [{ file, rule := check.2, error }]⟩

/-- Runs one check, with nothing staged before it. -/
def dispatch (before : LintResult) (check : Target × Rule) : LintResult :=
  match (check.2.stage context check.1) [] with
  | (.ok _, staged) => { before with diagnostics := before.diagnostics ++ staged }
  | (.error error, _) =>
      { before with defects := before.defects ++ [{ file, rule := check.2, error }] }

/-- Runs the rules that select a target in the order of the list. -/
def dispatchRules (before : LintResult) (target : Target) : LintResult :=
  rules.foldl (fun before rule =>
    if rule.selects target then dispatch context file before (target, rule) else before) before

/-- Visits a node: its own targets first, and then its parts. -/
def Node.lintFrom (before : LintResult) (node : Node) : LintResult :=
  (node.parts .whole).attach.foldl (fun before child => Node.lintFrom before child.1)
    (node.targets.foldl (dispatchRules context file rules) before)
termination_by sizeOf node
decreasing_by exact Node.sizeOf_lt_of_mem_parts child.2

variable {context} {file} {rules}

theorem dispatch_eq_append (before : LintResult) (check : Target × Rule) :
    dispatch context file before check = before.append (contribution context file check) := by
  unfold dispatch contribution
  split <;> simp [LintResult.append]

theorem foldl_dispatchRules (targets : List Target) (before : LintResult) :
    targets.foldl (dispatchRules context file rules) before =
      (targets.flatMap fun target =>
        (rules.filter fun rule => rule.selects target).map fun rule =>
          (target, rule)).foldl (dispatch context file) before := by
  rw [List.foldl_flatMap]
  congr 1
  funext before target
  rw [dispatchRules, List.foldl_map, List.foldl_filter]

theorem lintFrom_eq_visitTargets :
    Node.lintFrom context file rules = Node.visitTargets (dispatchRules context file rules) := by
  funext before node
  induction node using Node.inductionOnParts .whole generalizing before with
  | step node induction =>
      rw [Node.lintFrom, Node.visitTargets]
      congr 1
      funext before child
      exact induction child.1 child.2 before

theorem foldl_lintFrom_eq_append (items : List Node) (before : LintResult) :
    items.foldl (Node.lintFrom context file rules) before =
      before.append (.concat ((checksOf rules items).map (contribution context file))) := by
  rw [lintFrom_eq_visitTargets, foldl_visitTargets, foldl_dispatchRules]
  exact LintResult.foldl_eq_append_concat dispatch_eq_append _ before

theorem contribution_eq (check : Target × Rule) :
    (contribution context file check).diagnostics = diagnosticsOf context check ∧
      (contribution context file check).defects = (defectOf? context file check).toList := by
  obtain ⟨added, kept, runs⟩ := check.2.carries_stage context check.1
  rw [contribution, runs, diagnosticsOf, defectOf?]
  cases checked : check.2.check context check.1 with
  | error error => exact ⟨rfl, rfl⟩
  | ok diagnostics =>
      rw [kept diagnostics checked]
      exact ⟨rfl, rfl⟩

end Traversal

theorem lint_eq_concat (parsed : ParsedSource) (file : String) (sections : DocSections)
    (rules : List Rule) :
    parsed.lint file sections rules =
      .concat ((checksOf rules parsed.items).map
        (contribution (parsed.checkContext sections) file)) := by
  rw [ParsedSource.lint, LintResult.concat, List.flatMap_map, List.flatMap_map]
  congr 1
  · apply List.flatMap_congr
    intro check _
    exact (contribution_eq check).1.symm
  · rw [List.filterMap_eq_flatMap_toList]
    apply List.flatMap_congr
    intro check _
    exact (contribution_eq check).2.symm

/-- Linting a file is one traversal that runs the checks.  It adds to what was found before just
the contributions of the single checks in their order.  A check contributes the same in whatever
state it is run, and gives the same answer whatever is staged already. -/
theorem lint_eq_of_traversal (parsed : ParsedSource) (file : String) (sections : DocSections)
    (rules : List Rule) :
    parsed.items.foldl (Node.lintFrom (parsed.checkContext sections) file rules) .empty =
        parsed.lint file sections rules ∧
      parsed.lint file sections rules =
        .concat ((checksOf rules parsed.items).map
          (contribution (parsed.checkContext sections) file)) ∧
      ∀ check : Target × Rule,
        (∀ before, dispatch (parsed.checkContext sections) file before check =
          before.append (contribution (parsed.checkContext sections) file check)) ∧
        Carries (check.2.stage (parsed.checkContext sections) check.1)
          (check.2.check (parsed.checkContext sections) check.1) := by
  refine ⟨?_, lint_eq_concat parsed file sections rules, ?_⟩
  · rw [foldl_lintFrom_eq_append, lint_eq_concat, LintResult.empty_append]
  · intro check
    exact ⟨fun before => dispatch_eq_append before check, check.2.carries_stage _ check.1⟩

end StoreLint
