import StoreLint.Proofs.Scope.Bare
import StoreLint.Rule.Lint

/-!
# Wrappers and the spelling of keys do not matter

Parentheses and type annotations around an expression, and quotes around a property
key, change nothing about what a module means, and linting it gives the same result.
Each analysis is shown to give the same answer for a tree and for its bare form; two
modules with the same bare form then have the same diagnostics and defects.

One thing has to stay in place.  A property in the target of an assignment that names
an asset of the root store is reported with its whole range, and the range ends with
the value.  The bare form keeps this range, so only modules in which it is the same
are compared.
-/

namespace StoreLint

namespace Node

theorem isContext_bare (context : String) (node : Node) (role : Role) :
    (node.bare role).isContext context = node.isContext context := by
  induction node using inductionOnParts .whole generalizing role with
  | step node induction =>
      cases node with
      | wrapped span wrapper inner types =>
          have below := induction inner (by simp [parts]) .free
          rw [bare]
          split <;> exact below
      | _ => simp [bare, isContext, unwrap]

theorem stringValue?_bare (node : Node) :
    (node.bare .free).stringValue? = node.stringValue? := by
  have notWrapped := notWrapped_unwrap node
  rw [stringValue?, stringValue?, unwrap_bare]
  generalize node.unwrap = inner at notWrapped
  cases inner with
  | wrapped span wrapper inside types => exact absurd rfl (notWrapped _ _ _ _)
  | _ => simp [bare]

theorem accessedAsset_bare (context : String) (span : Span) (object : Node)
    (name : Option String) :
    accessedAsset context span (object.bare .free) name =
      accessedAsset context span object name := by
  cases name with
  | none => rfl
  | some asset => simp only [accessedAsset, isContext_bare]

/-- An expression in wrappers has no pattern as its bare form. -/
theorem bare_ne_objectPattern {node : Node} (isExpression : node.unwrap.isExpression = true) :
    ∀ span properties, node.bare .free ≠ .objectPattern span properties := by
  induction node using inductionOnParts .whole with
  | step node induction =>
      cases node with
      | wrapped span wrapper inner types =>
          rw [unwrap] at isExpression
          have below := induction inner (by simp [parts]) isExpression
          rw [bare]
          split
          · exact below
          · simp
      | objectPattern span properties => simp [unwrap, Node.isExpression] at isExpression
      | _ => simp [bare]

theorem assetSites_assignment_bare (context : String) (span : Span) (target value : Node) :
    assetSites context (.assignment span (target.bare .free) (value.bare .free)) =
      assetSites context (.assignment span target value) := by
  cases target with
  | objectPattern patternSpan properties =>
      simp only [bare, assetSites, isContext_bare, bareList_eq_map, destructuredAssets_bare]
  | wrapped wrapperSpan wrapper inner types =>
      rw [bare]
      split
      next isFree =>
        -- The target is an expression, so neither form takes anything out of the context.
        have noPattern := bare_ne_objectPattern isFree.2.1
        unfold assetSites
        split <;> simp_all
      next => rfl
  | _ => simp [bare, assetSites]

theorem assetSites_declarator_bare (context : String) (target : Node) (init : Option Node)
    (role : Role) :
    assetSites context
        (.declarator (target.bare .kept) (init.map fun value => value.bare role)) =
      assetSites context (.declarator target init) := by
  cases init with
  | none => simp [assetSites]
  | some value =>
      simp only [Option.map_some, assetSites, untyped_bare]
      cases target.untyped with
      | objectPattern span properties =>
          simp only [bare, isContext_bare, bareList_eq_map, destructuredAssets_bare]
      | wrapped span wrapper inner types => simp [bare]
      | _ => simp [bare]

theorem assetSites_bare {context : String} {node : Node}
    (notWrapped : node.NotWrapped) (role : Role) :
    (node.bare role).assetSites context = node.assetSites context := by
  cases node with
  | wrapped span wrapper inner types => exact absurd rfl (notWrapped _ _ _ _)
  | member span object name => simp [bare, assetSites, accessedAsset_bare]
  | index span object key => simp [bare, assetSites, accessedAsset_bare, stringValue?_bare]
  | declarator target init => simp [bare, assetSites_declarator_bare]
  | assignment span target value => simp [bare, assetSites_assignment_bare]
  | _ => simp [bare, assetSites]

theorem keepsContext_bare {context : String} {node : Node}
    (notWrapped : node.NotWrapped) (role : Role) :
    (node.bare role).keepsContext context = node.keepsContext context := by
  cases node with
  | wrapped span wrapper inner types => exact absurd rfl (notWrapped _ _ _ _)
  | functionLike span form own params body types =>
      simp [bare, keepsContext, anyBinds_eq_any, Function.comp_def, binds_bare]
  | _ => simp [bare, keepsContext]

theorem agrees_assetSites (context : String) :
    Agrees (keepsContext context) (assetSites context) (assetSites context) where
  enters_wrapped := fun _ _ _ _ => rfl
  found_wrapped := fun _ _ _ _ => rfl
  bareFound_wrapped := fun _ _ _ _ => rfl
  found_typeForm := by
    intro node isForm
    cases node <;> first | rfl | cases isForm
  enters_bare := keepsContext_bare
  found_bare := assetSites_bare

theorem contextAssets_bare (context : String) (body : List Node) :
    contextAssets context (body.map fun statement => statement.bare .free) =
      contextAssets context body :=
  (agrees_assetSites context).flatMap_walkList body .free

theorem parameterAssets_bare (body : List Node) (pattern : Node) :
    (pattern.bare .kept).parameterAssets (body.map fun statement => statement.bare .free) =
      pattern.parameterAssets body := by
  induction pattern using inductionOnParts .whole with
  | step pattern induction =>
      cases pattern with
      | objectPattern span properties =>
          rw [bare, parameterAssets, parameterAssets, bareList_eq_map, destructuredAssets_bare]
      | identifier id => rw [bare, parameterAssets, parameterAssets, contextAssets_bare]
      | defaulted span target value =>
          rw [bare, parameterAssets, parameterAssets]
          exact induction target (by simp [parts])
      | annotated span target type =>
          rw [bare, parameterAssets, parameterAssets]
          exact induction target (by simp [parts])
      | _ => simp [bare, parameterAssets]

theorem actionAssets_bare (function : Node) :
    (function.bare .kept).actionAssets = function.actionAssets := by
  rw [actionAssets, actionAssets, parameters_bare, functionBody_bare]
  cases function.parameters with
  | nil => rfl
  | cons context others => exact parameterAssets_bare function.functionBody context

theorem getterAssets_bare (function : Node) :
    (function.bare .kept).getterAssets = function.getterAssets := by
  rw [getterAssets, getterAssets, parameters_bare, List.length_map, span_bare_kept]

theorem calleeName?_bare (callee : Node) :
    (callee.bare .free).calleeName? = callee.calleeName? := by
  have notWrapped := notWrapped_unwrap callee
  rw [calleeName?, calleeName?, unwrap_bare]
  generalize callee.unwrap = inner at notWrapped
  cases inner with
  | wrapped span wrapper inside types => exact absurd rfl (notWrapped _ _ _ _)
  | _ => simp [bare]

/-- Whether an expression is the literal `true`. -/
def isTrueLiteral (value : Node) : Bool :=
  match value.unwrap with
  | .literal _ (.boolean flag) => flag
  | _ => false

theorem isTrueLiteral_bare (value : Node) :
    (value.bare .free).isTrueLiteral = value.isTrueLiteral := by
  have notWrapped := notWrapped_unwrap value
  rw [isTrueLiteral, isTrueLiteral, unwrap_bare]
  generalize value.unwrap = inner at notWrapped
  cases inner with
  | wrapped span wrapper inside types => exact absurd rfl (notWrapped _ _ _ _)
  | _ => simp [bare]

theorem isRootOption_bare (arg : Node) :
    (arg.bare .free).isRootOption = arg.isRootOption := by
  have notWrapped := notWrapped_unwrap arg
  rw [isRootOption, isRootOption, unwrap_bare]
  generalize arg.unwrap = inner at notWrapped
  cases inner with
  | wrapped span wrapper inside types => exact absurd rfl (notWrapped _ _ _ _)
  | objectLiteral span entries =>
      cases entries with
      | nil => rfl
      | cons entry entries =>
          cases entry with
          | keyValue key value =>
              have name := keyName?_bare key
              have flag := isTrueLiteral_bare value
              simp only [bare, bareList, name]
              exact congrArg (key.keyName? == some "root" && ·) flag
          | _ => simp [bare, bareList]
  | _ => simp [bare]

end Node

theorem checkRootCall_bare (span : Span) (callee : Node) (args : List Node) :
    checkRootCall span (callee.bare .free) (args.map fun arg => arg.bare .free) =
      checkRootCall span callee args := by
  have options : (((args.map fun arg => arg.bare .free).drop 1).take 2).any Node.isRootOption =
      ((args.drop 1).take 2).any Node.isRootOption := by
    rw [← List.map_drop, ← List.map_take, List.any_map]
    congr 1
    funext arg
    exact Node.isRootOption_bare arg
  rw [checkRootCall, checkRootCall, Node.calleeName?_bare, options]

/-- An entry of an object literal, and the literal, in bare form. -/
def PlacedEntry.bare (placed : PlacedEntry) : PlacedEntry :=
  { entry := placed.entry.bare .entry
    siblings := placed.siblings.map fun entry => entry.bare .entry }

def Target.bare : Target → Target
  | .entry placed => .entry placed.bare
  | .call span callee args => .call span (callee.bare .free) (args.map fun arg => arg.bare .free)

theorem siblingKeys_bare (placed : PlacedEntry) :
    placed.bare.siblingKeys = placed.siblingKeys := by
  have notFree : Node.Role.entry ≠ .free := by decide
  simp [PlacedEntry.siblingKeys, PlacedEntry.bare, Node.entryName?_bare notFree]

theorem entryName?_placed_bare (placed : PlacedEntry) :
    placed.bare.entry.entryName? = placed.entry.entryName? :=
  Node.entryName?_bare (by decide) placed.entry

/-- The entries are taken for the same section of a store or of a component. -/
structure PlacedEntry.Alike (placed other : PlacedEntry) : Prop where
  name : other.entry.entryName? = placed.entry.entryName?
  keys : other.siblingKeys = placed.siblingKeys

theorem PlacedEntry.Alike.isGetters {placed other : PlacedEntry} (alike : placed.Alike other) :
    other.isGetters = placed.isGetters := by
  simp only [PlacedEntry.isGetters, PlacedEntry.inStore, alike.name, alike.keys]

theorem PlacedEntry.Alike.isActions {placed other : PlacedEntry} (alike : placed.Alike other) :
    other.isActions = placed.isActions := by
  simp only [PlacedEntry.isActions, PlacedEntry.inStore, alike.name, alike.keys]

theorem PlacedEntry.Alike.appliesTo {placed other : PlacedEntry} (alike : placed.Alike other)
    (sections : DocSections) : sections.appliesTo other = sections.appliesTo placed := by
  simp only [DocSections.appliesTo, PlacedEntry.isActions, PlacedEntry.isState,
    PlacedEntry.isProps, PlacedEntry.inStore, PlacedEntry.inComponent, alike.name, alike.keys]

theorem alike_bare (placed : PlacedEntry) : placed.Alike placed.bare :=
  ⟨entryName?_placed_bare placed, siblingKeys_bare placed⟩

theorem checkDocumented_bare (comments : CommentIndex) (entry : Node) :
    checkDocumented comments (entry.bare .entry) = checkDocumented comments entry := by
  simp only [checkDocumented, Rule.reportKey, Node.docAnchor_bare,
    Node.entryKeySpan?_bare (by decide : Node.Role.entry ≠ .free)]

/-- Checking the entries of a section one by one does not depend on their form. -/
theorem flatten_mapM_bare {check bareCheck : Node → Except AnalysisError (List Diagnostic)}
    (same : ∀ entry, bareCheck (entry.bare .entry) = check entry)
    (children : Except AnalysisError (List Node)) :
    (do
      let entries ← children.map fun entries => entries.map fun entry => entry.bare .entry
      let found ← entries.mapM bareCheck
      return found.flatten : Except AnalysisError (List Diagnostic)) =
    (do
      let entries ← children
      let found ← entries.mapM check
      return found.flatten) := by
  rcases children with error | entries
  · rfl
  · have composed : (bareCheck ∘ fun entry => entry.bare .entry) = check := by
      funext entry
      exact same entry
    simp only [Except.map, bind, Except.bind, List.mapM_map, composed]

theorem docSections_check_bare (sections : DocSections) (tree : ScopeTree)
    (comments : CommentIndex) (placed : PlacedEntry) :
    sections.check tree.bare comments placed.bare = sections.check tree comments placed := by
  have children : tree.bare.childEntries placed.bare.entry = _ :=
    tree.childEntries_bare placed.entry
  rw [DocSections.check, DocSections.check, (alike_bare placed).appliesTo, children,
    flatten_mapM_bare (checkDocumented_bare comments)]

theorem reportAssets_bare {functionOf bareFunctionOf : Node → Except AnalysisError (Option Node)}
    {assetsOf : Node → List AssetSite} {entry : Node}
    (sameFunction : bareFunctionOf (entry.bare .entry) =
      (functionOf entry).map fun found => found.map fun function => function.bare .kept)
    (sameAssets : ∀ function : Node, assetsOf (function.bare .kept) = assetsOf function) :
    reportAssets bareFunctionOf assetsOf (entry.bare .entry) =
      reportAssets functionOf assetsOf entry := by
  rw [reportAssets, reportAssets, sameFunction]
  rcases functionOf entry with error | _ | function
  · rfl
  · rfl
  · simp [Except.map, bind, Except.bind, sameAssets]

theorem find?_handler_bare (entries : List Node) :
    (entries.map fun entry => entry.bare .entry).find?
        (fun part => part.entryName? == some "handler") =
      (entries.find? fun part => part.entryName? == some "handler").map fun entry =>
        entry.bare .entry := by
  have notFree : Node.Role.entry ≠ .free := by decide
  simp only [List.find?_map, Function.comp_def, Node.entryName?_bare notFree]

theorem actionHandler_bare (tree : ScopeTree) (entry : Node) :
    tree.bare.actionHandler (entry.bare .entry) =
      (tree.actionHandler entry).map fun found => found.map fun function =>
        function.bare .kept := by
  have function := tree.functionOfEntry_bare entry
  cases entry with
  | keyValue key value =>
      have notWrapped := Node.notWrapped_unwrap value
      have unwrapped := Node.unwrap_bare value
      have bareEntry : (Node.keyValue key value).bare .entry =
          .keyValue (key.bare .kept) (value.bare .free) := by
        simp [Node.bare, Node.Role.part]
      rw [bareEntry] at function ⊢
      simp only [ScopeTree.actionHandler, unwrapped, function]
      generalize value.unwrap = inner at notWrapped
      cases inner with
      | wrapped span wrapper inside types => exact absurd rfl (notWrapped _ _ _ _)
      | objectLiteral span entries =>
          simp only [Node.bare, Node.bareList_eq_map, find?_handler_bare]
          cases entries.find? fun part => part.entryName? == some "handler" with
          | none => rfl
          | some handler => exact tree.functionOfEntry_bare handler
      | _ => simp [Node.bare]
  | _ => simpa [Node.bare, ScopeTree.actionHandler] using function

theorem checkRootAssets_bare (tree : ScopeTree) (placed : PlacedEntry) :
    checkRootAssets tree.bare placed.bare = checkRootAssets tree placed := by
  have children : tree.bare.childEntries placed.bare.entry = _ :=
    tree.childEntries_bare placed.entry
  rw [checkRootAssets, checkRootAssets, (alike_bare placed).isGetters,
    (alike_bare placed).isActions, children,
    flatten_mapM_bare (fun entry => reportAssets_bare (tree.functionOfEntry_bare entry)
      Node.getterAssets_bare),
    flatten_mapM_bare (fun entry => reportAssets_bare (actionHandler_bare tree entry)
      Node.actionAssets_bare)]

theorem Rule.check_bare (context : CheckContext) (rule : Rule) (target : Target) :
    rule.check { context with tree := context.tree.bare } target.bare =
      rule.check context target := by
  cases target with
  | entry placed =>
      cases rule with
      | requireDoc => exact docSections_check_bare _ _ _ _
      | rootAssets => exact checkRootAssets_bare _ _
      | _ => rfl
  | call span callee args =>
      cases rule with
      | rootCalls => exact checkRootCall_bare span callee args
      | _ => rfl

theorem targets_bare {node : Node} (notWrapped : node.NotWrapped)
    (role : Node.Role) : (node.bare role).targets = node.targets.map Target.bare := by
  cases node with
  | wrapped span wrapper inner types => exact absurd rfl (notWrapped _ _ _ _)
  | objectLiteral span entries =>
      simp [Node.bare, Node.targets, Node.placedEntries, Node.properEntries_bare, Target.bare,
        PlacedEntry.bare]
  | call span callee args types => simp [Node.bare, Node.targets, Target.bare]
  | _ => simp [Node.bare, Node.targets]

theorem targetsOf_bare (items : List Node) :
    targetsOf (items.map fun item => item.bare .free) =
      (targetsOf items).map Target.bare := by
  have agrees : Node.Agrees (fun _ => true) (fun node => node.targets.map Target.bare)
      Node.targets :=
    { enters_wrapped := fun _ _ _ _ => rfl
      found_wrapped := fun _ _ _ _ => rfl
      bareFound_wrapped := fun _ _ _ _ => rfl
      found_typeForm := by
        intro node isForm
        cases node <;> first | rfl | cases isForm
      enters_bare := fun _ _ => rfl
      found_bare := targets_bare }
  have found := agrees.flatMap_walkList items .free
  rw [← List.map_flatMap] at found
  exact found

theorem checksOf_bare (rules : List Rule) (items : List Node) :
    checksOf rules (items.map fun item => item.bare .free) =
      (checksOf rules items).map fun check => (check.1.bare, check.2) := by
  have selects : ∀ (rule : Rule) (target : Target),
      rule.selects target.bare = rule.selects target := by
    intro rule target
    cases target <;> rfl
  simp [checksOf, targetsOf_bare, List.flatMap_map, List.map_flatMap, Function.comp_def, selects]

theorem diagnosticsOf_bare (context : CheckContext) (check : Target × Rule) :
    diagnosticsOf { context with tree := context.tree.bare } (check.1.bare, check.2) =
      diagnosticsOf context check := by
  rw [diagnosticsOf, diagnosticsOf, Rule.check_bare]

theorem defectOf?_bare (context : CheckContext) (file : String) (check : Target × Rule) :
    defectOf? { context with tree := context.tree.bare } file (check.1.bare, check.2) =
      defectOf? context file check := by
  rw [defectOf?, defectOf?, Rule.check_bare]

/-- Linting a module gives the same as linting its bare form. -/
theorem lint_bare (parsed : ParsedSource) (file : String) (sections : DocSections)
    (rules : List Rule) :
    ({ parsed with items := Node.bareList parsed.items .free }).lint file sections rules =
      parsed.lint file sections rules := by
  have context : ({ parsed with items := Node.bareList parsed.items .free }).checkContext sections =
      { parsed.checkContext sections with tree := (parsed.checkContext sections).tree.bare } := by
    simp only [ParsedSource.checkContext, Node.bareList_eq_map, ScopeTree.build_bare]
    rfl
  rw [ParsedSource.lint, ParsedSource.lint, context]
  simp only [Node.bareList_eq_map, checksOf_bare, List.flatMap_map, List.filterMap_map,
    Function.comp_def, diagnosticsOf_bare, defectOf?_bare]

/-- Modules that differ in wrappers and in the spelling of keys alone have the same diagnostics
and the same defects. -/
theorem lint_eq_of_bareList_eq {parsed : ParsedSource} {items : List Node}
    (same : Node.bareList items .free = Node.bareList parsed.items .free) (file : String)
    (sections : DocSections) (rules : List Rule) :
    ({ parsed with items }).lint file sections rules = parsed.lint file sections rules := by
  calc ({ parsed with items }).lint file sections rules
      = ({ parsed with items := Node.bareList items .free }).lint file sections rules :=
        (lint_bare { parsed with items } file sections rules).symm
    _ = ({ parsed with items := Node.bareList parsed.items .free }).lint file sections rules := by
        rw [same]
    _ = parsed.lint file sections rules := lint_bare parsed file sections rules

/-- A store with one action, which takes an asset of the root store out of its context:
`{ actions: { load(ctx) { ({ rootState: a.b } = ctx); } }, state: {} }`. -/
def destructuringStore (key : KeyText) (value context : Node) : ParsedSource :=
  let taking := .assignment ⟨27, 50⟩
    (.objectPattern ⟨27, 44⟩ [.keyValue (.plainKey ⟨29, 38⟩ key) value]) context
  let load := .functionLike ⟨14, 54⟩ .ordinary none [.identifier ⟨"ctx", ⟨19, 22⟩⟩] [taking] []
  { span := ⟨1, 69⟩
    items := [.objectLiteral ⟨1, 69⟩
      [.keyValue (.plainKey ⟨3, 10⟩ (.identifier "actions"))
          (.objectLiteral ⟨12, 56⟩
            [.methodEntry (.plainKey ⟨14, 18⟩ (.identifier "load")) load]),
        .keyValue (.plainKey ⟨58, 63⟩ (.identifier "state")) (.objectLiteral ⟨65, 67⟩ [])]]
    comments := []
    source := ⟨1, ""⟩
    text := "" }

/-- The `a.b` of the store. -/
def assetTarget : Node := .member ⟨40, 43⟩ (.identifier ⟨"a", ⟨40, 41⟩⟩) "b"

/-- The `ctx` of the store. -/
def contextName : Node := .identifier ⟨"ctx", ⟨47, 50⟩⟩

/-- The store with a quoted key and with its context in a type annotation. -/
theorem lint_eq_of_quotes_and_annotation :
    Node.bareList (destructuringStore (.string (some "rootState")) assetTarget
        (.wrapped ⟨47, 57⟩ .asType contextName [.compound ⟨54, 57⟩ []])).items .free =
      Node.bareList (destructuringStore (.identifier "rootState") assetTarget
        contextName).items .free ∧
    (destructuringStore (.string (some "rootState")) assetTarget
        (.wrapped ⟨47, 57⟩ .asType contextName [.compound ⟨54, 57⟩ []])).lint "store.ts" {}
          Rule.checks =
      (destructuringStore (.identifier "rootState") assetTarget contextName).lint "store.ts" {}
        Rule.checks := by
  refine ⟨rfl, ?_⟩
  exact @lint_eq_of_bareList_eq
    (destructuringStore (.identifier "rootState") assetTarget contextName)
    (destructuringStore (.string (some "rootState")) assetTarget
      (.wrapped ⟨47, 57⟩ .asType contextName [.compound ⟨54, 57⟩ []])).items
    rfl "store.ts" {} Rule.checks

/-- Parentheses around the target of the asset move the end of the diagnostic. -/
theorem lint_ne_of_parenthesized_target :
    (destructuringStore (.identifier "rootState") (.wrapped ⟨39, 44⟩ .parentheses assetTarget [])
        contextName).lint "store.js" {} Rule.checks ≠
      (destructuringStore (.identifier "rootState") assetTarget contextName).lint "store.js" {}
        Rule.checks := by
  intro same
  have spans := congrArg (fun result => result.diagnostics.map Diagnostic.span) same
  revert spans
  decide

end StoreLint
