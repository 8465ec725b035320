import StoreLint.Proofs.Rule.Anchors
import StoreLint.Proofs.Scope.Resolution

/-!
# What defects are about

A check fails where resolution fails and nowhere else.  Diagnostics stand at nodes of
the module, with messages that their rules have, so making one never fails in a module
that was written as a whole; and the entries that a section is followed to have keys.
What is left are identifiers that nothing declares and functions that never return.
-/

namespace StoreLint

namespace Node

/-- Whether the entries of an object literal are properties and spreads. -/
def hasKeys : Node → Bool
  | .objectLiteral _ entries =>
      entries.all fun entry => entry.isSpread || entry.entryKeySpan?.isSome
  | _ => true

/-- The identifier occurs in the trees as an expression or as a shorthand entry. -/
def Mentions (items : List Node) (id : Identifier) : Prop :=
  Node.identifier id ∈ nodesOf .whole items ∨ Node.shorthand id ∈ nodesOf .whole items

theorem Mentions.of_mem {items : List Node} {node : Node} {id : Identifier}
    (mentions : Mentions [node] id) (isNode : node ∈ nodesOf .whole items) : Mentions items id :=
  mentions.imp (nodesOf_subset_of_mem isNode ·) (nodesOf_subset_of_mem isNode ·)

theorem mentions_of_unwrap {value : Node} {id : Identifier}
    (isName : value.unwrap = .identifier id) :
    Mentions [value] id := by
  left
  rw [← isName]
  exact unwrap_mem_nodesOf value

end Node

/-- A module that was written as a whole: what it consists of stands somewhere in the file, and the
entries of its object literals are properties and spreads. -/
structure Written (items : List Node) : Prop where
  placed : Placed items
  keyed : ∀ node ∈ Node.nodesOf .whole items, node.hasKeys = true

theorem Written.key_placed {items : List Node} (written : Written items) {entry : Node}
    (isEntry : Node.EntryIn items entry) :
    ∃ key, entry.entryKeySpan? = some key ∧ key.isDummy = false := by
  have isNode := isEntry.mem_nodesOf
  obtain ⟨span, entries, isLiteral, member⟩ := isEntry
  obtain ⟨isOwn, notSpread⟩ := List.mem_filter.mp member
  have keyed := List.all_eq_true.mp (written.keyed _ isLiteral) entry isOwn
  rw [Bool.or_eq_true] at keyed
  rcases keyed with isSpread | hasKey
  · rw [isSpread] at notSpread
    cases notSpread
  · obtain ⟨key, isKey⟩ := Option.isSome_iff_exists.mp hasKey
    exact ⟨key, isKey, written.placed.key isNode isKey⟩

theorem bind_eq_error_iff {α β ε : Type} {first : Except ε α} {next : α → Except ε β} {error : ε} :
    (first >>= next) = .error error ↔
      first = .error error ∨ ∃ value, first = .ok value ∧ next value = .error error := by
  cases first with
  | error other => simp [bind, Except.bind]
  | ok value => simp [bind, Except.bind]

theorem exists_of_mapM_eq_error {α β ε : Type} {check : α → Except ε β} {items : List α} {error : ε}
    (fails : items.mapM check = .error error) : ∃ item ∈ items, check item = .error error := by
  induction items with
  | nil => cases fails
  | cons item items induction =>
      rw [List.mapM_cons] at fails
      rcases bind_eq_error_iff.mp fails with first | ⟨value, _, later⟩
      · exact ⟨item, by simp, first⟩
      · rcases bind_eq_error_iff.mp later with rest | ⟨values, _, impossible⟩
        · obtain ⟨other, isOther, otherFails⟩ := induction rest
          exact ⟨other, by simp [isOther], otherFails⟩
        · cases impossible

/-- A section that cannot be checked cannot be followed to its entries, or one of the entries
cannot be checked. -/
theorem section_eq_error {check : Node → Except AnalysisError (List Diagnostic)}
    {children : Except AnalysisError (List Node)} {error : AnalysisError}
    (fails : (do
      let entries ← children
      let found ← entries.mapM check
      return found.flatten) = .error error) :
    children = .error error ∨
      ∃ entries, children = .ok entries ∧ ∃ entry ∈ entries, check entry = .error error := by
  rcases bind_eq_error_iff.mp fails with notFollowed | ⟨entries, isFollowed, later⟩
  · exact .inl notFollowed
  · rcases bind_eq_error_iff.mp later with notChecked | ⟨found, _, impossible⟩
    · exact .inr ⟨entries, isFollowed, exists_of_mapM_eq_error notChecked⟩
    · cases impossible

namespace ScopeTree

section Build

variable {span : Span} {items : List Node} {error : AnalysisError}

theorem failsAt_of_entriesOfBinding {id : Identifier}
    (fails : (build span items).entriesOfBinding id = .error error) :
    (build span items).FailsAt id error := by
  rcases bind_eq_error_iff.mp fails with unresolved | ⟨definition, resolves, later⟩
  · exact failsAt_of_resolve unresolved
  · rcases bind_eq_error_iff.mp later with noValue | ⟨value, _, impossible⟩
    · exact failsAt_of_value? resolves noValue
    · cases value <;> cases impossible

theorem failsAt_of_functionOfBinding {id : Identifier}
    (fails : (build span items).functionOfBinding id = .error error) :
    (build span items).FailsAt id error := by
  rcases bind_eq_error_iff.mp fails with unresolved | ⟨definition, _, impossible⟩
  · exact failsAt_of_resolve unresolved
  · cases impossible

/-- An entry that cannot be followed mentions an identifier at which resolution fails. -/
theorem failsAt_of_childEntries {entry : Node}
    (fails : (build span items).childEntries entry = .error error) :
    ∃ id, Node.Mentions [entry] id ∧ (build span items).FailsAt id error := by
  unfold childEntries at fails
  split at fails
  next key value =>
    split at fails
    next => cases fails
    next id isName =>
      refine ⟨id, ?_, failsAt_of_entriesOfBinding fails⟩
      apply (Node.mentions_of_unwrap isName).of_mem
      exact Node.mem_nodesOf_of_mem_parts (by simp [Node.parts])
    next => cases fails
  next id => exact ⟨id, .inr (Node.mem_nodesOf_of_mem (by simp)), failsAt_of_entriesOfBinding fails⟩
  next => cases fails

theorem failsAt_of_functionOfEntry {entry : Node}
    (fails : (build span items).functionOfEntry entry = .error error) :
    ∃ id, Node.Mentions [entry] id ∧ (build span items).FailsAt id error := by
  unfold functionOfEntry at fails
  split at fails
  next => cases fails
  next key value =>
    split at fails
    next id isName =>
      refine ⟨id, ?_, failsAt_of_functionOfBinding fails⟩
      apply (Node.mentions_of_unwrap isName).of_mem
      exact Node.mem_nodesOf_of_mem_parts (by simp [Node.parts])
    next => cases fails
  next id =>
    exact ⟨id, .inr (Node.mem_nodesOf_of_mem (by simp)), failsAt_of_functionOfBinding fails⟩
  next => cases fails

theorem failsAt_of_actionHandler {entry : Node}
    (fails : (build span items).actionHandler entry = .error error) :
    ∃ id, Node.Mentions [entry] id ∧ (build span items).FailsAt id error := by
  rcases actionHandler_eq_functionOfEntry (build span items) entry with
    nothing | ⟨handler, isHandler, same⟩
  · rw [nothing] at fails
    cases fails
  · rw [same] at fails
    obtain ⟨id, mentions, failsAt⟩ := failsAt_of_functionOfEntry fails
    exact ⟨id, mentions.of_mem isHandler, failsAt⟩

end Build

end ScopeTree

theorem Rule.report_ne_error {rule : Rule} {span : Span} {messageId : String}
    {data : Template.Values} {error : AnalysisError} (placed : span.isDummy = false)
    (known : (rule.message? messageId).isSome) :
    rule.report span messageId data ≠ .error error := by
  obtain ⟨template, isTemplate⟩ := Option.isSome_iff_exists.mp known
  simp [Rule.report, placed, isTemplate]

/-- Where every use stands in the file, nothing but finding the function can fail. -/
theorem functionOf_of_reportAssets {functionOf : Node → Except AnalysisError (Option Node)}
    {assetsOf : Node → List AssetSite} {entry : Node} {error : AnalysisError}
    (placed : ∀ function, functionOf entry = .ok (some function) →
      ∀ site ∈ assetsOf function, site.span.isDummy = false)
    (fails : reportAssets functionOf assetsOf entry = .error error) :
    functionOf entry = .error error := by
  rcases bind_eq_error_iff.mp fails with notFound | ⟨found, isFound, later⟩
  · exact notFound
  · cases found with
    | none => cases later
    | some function =>
        obtain ⟨site, isSite, notReported⟩ := exists_of_mapM_eq_error later
        exact absurd notReported (Rule.report_ne_error (placed function isFound site isSite) rfl)

section Checks

variable {parsed : ParsedSource} {sections : DocSections} {error : AnalysisError}

theorem failsAt_of_requireDoc (written : Written parsed.items) {placed : PlacedEntry}
    (isNode : placed.entry ∈ Node.nodesOf .whole parsed.items)
    (fails : Rule.requireDoc.check (parsed.checkContext sections) (.entry placed) = .error error) :
    ∃ id, Node.Mentions parsed.items id ∧
      (ScopeTree.build parsed.span parsed.items).FailsAt id error := by
  simp only [Rule.check, DocSections.check] at fails
  split at fails
  · rcases section_eq_error fails with
      notFollowed | ⟨entries, isFollowed, entry, isEntry, notChecked⟩
    · obtain ⟨id, mentions, failsAt⟩ := ScopeTree.failsAt_of_childEntries notFollowed
      exact ⟨id, mentions.of_mem isNode, failsAt⟩
    · obtain ⟨key, isKey, real⟩ :=
        written.key_placed (ScopeTree.entryIn_of_childEntries isNode isFollowed isEntry)
      rw [checkDocumented_eq isKey real] at notChecked
      cases notChecked
  · cases fails

/-- A section whose functions are looked at cannot be followed, or the function of one of its
entries cannot be found. -/
theorem failsAt_of_assetSection {functionOf : Node → Except AnalysisError (Option Node)}
    {assetsOf : Node → List AssetSite} {placed : PlacedEntry}
    (isNode : placed.entry ∈ Node.nodesOf .whole parsed.items)
    (functionFails : ∀ {entry : Node}, functionOf entry = .error error →
      ∃ id, Node.Mentions [entry] id ∧
        (ScopeTree.build parsed.span parsed.items).FailsAt id error)
    (sitesPlaced : ∀ entry ∈ Node.nodesOf .whole parsed.items, ∀ function,
      functionOf entry = .ok (some function) →
        ∀ site ∈ assetsOf function, site.span.isDummy = false)
    (fails : (do
      let children ← (ScopeTree.build parsed.span parsed.items).childEntries placed.entry
      let found ← children.mapM (reportAssets functionOf assetsOf)
      return found.flatten) = .error error) :
    ∃ id, Node.Mentions parsed.items id ∧
      (ScopeTree.build parsed.span parsed.items).FailsAt id error := by
  rcases section_eq_error fails with notFollowed | ⟨entries, isFollowed, entry, isEntry, notChecked⟩
  · obtain ⟨id, mentions, failsAt⟩ := ScopeTree.failsAt_of_childEntries notFollowed
    exact ⟨id, mentions.of_mem isNode, failsAt⟩
  · have inModule := ScopeTree.childEntries_mem_nodesOf isNode isFollowed isEntry
    have notFound := functionOf_of_reportAssets (sitesPlaced entry inModule) notChecked
    obtain ⟨id, mentions, failsAt⟩ := functionFails notFound
    exact ⟨id, mentions.of_mem inModule, failsAt⟩

theorem failsAt_of_rootAssets (written : Written parsed.items) {placed : PlacedEntry}
    (isNode : placed.entry ∈ Node.nodesOf .whole parsed.items)
    (fails : Rule.rootAssets.check (parsed.checkContext sections) (.entry placed) = .error error) :
    ∃ id, Node.Mentions parsed.items id ∧
      (ScopeTree.build parsed.span parsed.items).FailsAt id error := by
  simp only [Rule.check, checkRootAssets] at fails
  split at fails
  · apply failsAt_of_assetSection isNode ScopeTree.failsAt_of_functionOfEntry _ fails
    intro entry isEntry function found site isSite
    exact written.placed.getterAssets (ScopeTree.functionOfEntry_mem_nodesOf isEntry found) isSite
  · split at fails
    · apply failsAt_of_assetSection isNode ScopeTree.failsAt_of_actionHandler _ fails
      intro entry isEntry function found site isSite
      exact written.placed.actionAssets (ScopeTree.actionHandler_mem_nodesOf isEntry found) isSite
    · cases fails

theorem checkRootCall_ne_error {span : Span} {callee : Node} {args : List Node}
    (placed : span.isDummy = false) : checkRootCall span callee args ≠ .error error := by
  intro fails
  unfold checkRootCall at fails
  split at fails
  · cases fails
  · split at fails
    · rcases bind_eq_error_iff.mp fails with notReported | ⟨diagnostic, _, impossible⟩
      · exact Rule.report_ne_error placed rfl notReported
      · cases impossible
    · cases fails

/-- A check of a module that was written as a whole fails only where resolution fails. -/
theorem failsAt_of_check (written : Written parsed.items) {rules : List Rule}
    {check : Target × Rule} (isCheck : check ∈ checksOf rules parsed.items)
    (fails : check.2.check (parsed.checkContext sections) check.1 = .error error) :
    (check.2 = .requireDoc ∨ check.2 = .rootAssets) ∧
      ∃ id, Node.Mentions parsed.items id ∧
        (ScopeTree.build parsed.span parsed.items).FailsAt id error := by
  have isTarget := mem_targetsOf_of_check isCheck
  obtain ⟨target, rule⟩ := check
  cases target with
  | entry placed =>
      have isNode := entry_mem_nodesOf isTarget
      cases rule with
      | requireDoc => exact ⟨.inl rfl, failsAt_of_requireDoc written isNode fails⟩
      | rootAssets => exact ⟨.inr rfl, failsAt_of_rootAssets written isNode fails⟩
      | _ => cases fails
  | call span callee args =>
      obtain ⟨types, isNode⟩ := call_mem_nodesOf isTarget
      have placed := written.placed.span isNode
      cases rule with
      | rootCalls => exact absurd fails (checkRootCall_ne_error placed)
      | _ => cases fails

end Checks

/-- A defect of a module that was written as a whole comes from the documentation rule or the rule
about root assets.  It names an identifier of the module that no scope around it declares, or one
whose last declaration is a function that never returns. -/
theorem defects_of_lint {parsed : ParsedSource} (written : Written parsed.items) (file : String)
    (sections : DocSections) (rules : List Rule) :
    ∀ defect ∈ (parsed.lint file sections rules).defects,
      (defect.rule = .requireDoc ∨ defect.rule = .rootAssets) ∧
        ∃ id, Node.Mentions parsed.items id ∧
          ((defect.error = .unresolvedBinding id.name ∧
              (ScopeTree.build parsed.span parsed.items).Undeclared id) ∨
            (defect.error = .missingReturn id.name ∧
              (ScopeTree.build parsed.span parsed.items).NamesReturnless id)) := by
  intro defect isDefect
  obtain ⟨check, isCheck, isOwn⟩ := List.mem_filterMap.mp isDefect
  unfold defectOf? at isOwn
  split at isOwn
  · cases isOwn
  next error fails =>
    cases isOwn
    obtain ⟨isRule, id, mentions, failsAt⟩ := failsAt_of_check written isCheck fails
    refine ⟨isRule, id, mentions, ?_⟩
    cases failsAt with
    | undeclared isUndeclared => exact .inl ⟨rfl, isUndeclared⟩
    | returnless isReturnless => exact .inr ⟨rfl, isReturnless⟩

/-- The file `function build() {} ({ state: build, actions });`: the state comes from a function
that never returns, and the actions are declared nowhere. -/
def unresolvedStore : ParsedSource :=
  { span := ⟨1, 49⟩
    items := [
      .declaration ⟨"build", ⟨10, 15⟩⟩ (.functionLike ⟨1, 20⟩ .ordinary none [] [] []),
      .objectLiteral ⟨22, 47⟩
        [.keyValue (.plainKey ⟨24, 29⟩ (.identifier "state"))
            (.identifier ⟨"build", ⟨31, 36⟩⟩),
          .shorthand ⟨"actions", ⟨38, 45⟩⟩]]
    comments := []
    source := ⟨1, ""⟩
    text := "" }

theorem defects_of_lint_unresolvedStore :
    Written unresolvedStore.items ∧
      (unresolvedStore.lint "store.js" { state := true } Rule.checks).defects =
        [⟨"store.js", .requireDoc, .missingReturn "build"⟩,
          ⟨"store.js", .rootAssets, .unresolvedBinding "actions"⟩] ∧
      ∀ defect ∈ (unresolvedStore.lint "store.js" { state := true } Rule.checks).defects,
        ∃ id, Node.Mentions unresolvedStore.items id ∧
          ((defect.error = .unresolvedBinding id.name ∧
              (ScopeTree.build unresolvedStore.span unresolvedStore.items).Undeclared id) ∨
            (defect.error = .missingReturn id.name ∧
              (ScopeTree.build unresolvedStore.span
                unresolvedStore.items).NamesReturnless id)) := by
  have written : Written unresolvedStore.items := ⟨by decide, by decide⟩
  refine ⟨written, by decide, ?_⟩
  intro defect isDefect
  exact (defects_of_lint written "store.js" { state := true } Rule.checks defect isDefect).2

end StoreLint
