import StoreLint.Proofs.Rule.Anchors

/-!
# What diagnostics point at

The place of a diagnostic is the place of a node of the file it is about, even where the
rule has come to that node through declarations.  Which kind of node it is depends on the
rule: the key of an entry, a function, an access or a pattern property, or a call.
-/

namespace StoreLint

/-- The nodes of a module at which a rule may report, by their places. -/
inductive PointsAt (items : List Node) : Rule → Span → Prop where
  | key {entry : Node} {span : Span} (isEntry : Node.EntryIn items entry)
      (isKey : entry.entryKeySpan? = some span) : PointsAt items .requireDoc span
  | function {function : Node} (isNode : function ∈ Node.nodesOf .whole items)
      (isFunction : function.isFunction = true) : PointsAt items .rootAssets function.span
  | access {access : Node} (isNode : access ∈ Node.nodesOf .whole items)
      (isAccess : access.isAccess = true) : PointsAt items .rootAssets access.span
  | property {property : Node} (isProperty : Node.PropertyIn items property) :
      PointsAt items .rootAssets property.span
  | call {span : Span} {callee : Node} {args types : List Node}
      (isNode : Node.call span callee args types ∈ Node.nodesOf .whole items) :
      PointsAt items .rootCalls span

/-- A use of a root asset in a getter is the getter itself, which takes parameters. -/
theorem Node.isFunction_of_getterAssets {function : Node} {site : AssetSite}
    (isSite : site ∈ function.getterAssets) : function.isFunction = true := by
  cases function with
  | functionLike span form own params body types => rfl
  | _ => cases isSite

theorem pointsAt_of_getterAssets {items : List Node} {function : Node}
    (isNode : function ∈ Node.nodesOf .whole items) {site : AssetSite}
    (isSite : site ∈ function.getterAssets) : PointsAt items .rootAssets site.span := by
  rw [Node.span_of_getterAssets isSite]
  exact .function isNode (Node.isFunction_of_getterAssets isSite)

theorem Node.SiteIn.pointsAt {items : List Node} {site : AssetSite}
    (isSite : Node.SiteIn items site) : PointsAt items .rootAssets site.span := by
  obtain ⟨node, isNode, same, isAccess | isProperty⟩ := isSite
  · rw [same]
    exact .access isNode isAccess
  · rw [same]
    exact .property isProperty

theorem siteIn_of_mem_nodesOf {items : List Node} {function : Node}
    (isNode : function ∈ Node.nodesOf .whole items) {site : AssetSite}
    (isSite : site ∈ function.actionAssets) : Node.SiteIn items site :=
  (Node.siteIn_of_actionAssets isSite).mono (Node.nodesOf_subset_of_mem isNode)

theorem Finding.pointsAt {parsed : ParsedSource} {sections : DocSections} {rule : Rule}
    {target : Target} {diagnostic : Diagnostic}
    (finding : Finding (parsed.checkContext sections) rule target diagnostic)
    (isTarget : target ∈ targetsOf parsed.items) :
    PointsAt parsed.items rule diagnostic.span := by
  cases finding with
  | undocumented applies followed isEntry bare isKey reported =>
      rw [Rule.span_of_report reported]
      have isNode := entry_mem_nodesOf isTarget
      exact .key (ScopeTree.entryIn_of_childEntries isNode followed isEntry) isKey
  | inGetter isSection followed isEntry isFunction isSite reported =>
      rw [Rule.span_of_report reported]
      have inModule := entry_mem_nodesOf isTarget
      have isNode := ScopeTree.childEntries_mem_nodesOf inModule followed isEntry
      have isGetter := ScopeTree.functionOfEntry_mem_nodesOf isNode isFunction
      exact pointsAt_of_getterAssets isGetter isSite
  | inAction isSection followed isEntry isHandler isSite reported =>
      rw [Rule.span_of_report reported]
      have inModule := entry_mem_nodesOf isTarget
      have isNode := ScopeTree.childEntries_mem_nodesOf inModule followed isEntry
      have isAction := ScopeTree.actionHandler_mem_nodesOf isNode isHandler
      exact (siteIn_of_mem_nodesOf isAction isSite).pointsAt
  | atCall isName asks reported =>
      rw [Rule.span_of_report reported]
      obtain ⟨types, isNode⟩ := call_mem_nodesOf isTarget
      exact .call isNode

/-- Every diagnostic points at a node of the module, of the kind that its rule reports at.
Declarations keep nodes of the module only, and whatever an entry, a function or an action is
followed to is a node of the module as well. -/
theorem pointsAt_of_lint (parsed : ParsedSource) (file : String) (sections : DocSections)
    (rules : List Rule) :
    (∀ diagnostic ∈ (parsed.lint file sections rules).diagnostics,
      PointsAt parsed.items diagnostic.rule diagnostic.span) ∧
    (∀ scope ∈ (ScopeTree.build parsed.span parsed.items).scopes,
      ∀ definition ∈ scope.definitions, ∀ kept, definition.kept? = some kept →
        kept ∈ Node.nodesOf .whole parsed.items) ∧
    (∀ entry ∈ Node.nodesOf .whole parsed.items,
      (∀ children, (ScopeTree.build parsed.span parsed.items).childEntries entry = .ok children →
        ∀ child ∈ children, Node.EntryIn parsed.items child) ∧
      (∀ function,
        (ScopeTree.build parsed.span parsed.items).functionOfEntry entry = .ok (some function) →
          function ∈ Node.nodesOf .whole parsed.items) ∧
      (∀ function,
        (ScopeTree.build parsed.span parsed.items).actionHandler entry = .ok (some function) →
          function ∈ Node.nodesOf .whole parsed.items)) ∧
    ∀ function ∈ Node.nodesOf .whole parsed.items, ∀ site ∈ function.actionAssets,
      Node.SiteIn parsed.items site := by
  refine ⟨?_, ?_, ?_, ?_⟩
  · intro diagnostic member
    obtain ⟨check, isCheck, finding⟩ := exists_finding_of_lint member
    rw [finding.reports.diagnostic_eq.1]
    exact finding.pointsAt (mem_targetsOf_of_check isCheck)
  · intro scope isScope definition isDefinition kept keeps
    exact ScopeTree.kept?_of_mem_scopes isScope isDefinition keeps
  · intro entry isNode
    refine ⟨?_, ?_, ?_⟩
    · intro children followed child isChild
      exact ScopeTree.entryIn_of_childEntries isNode followed isChild
    · intro function isFunction
      exact ScopeTree.functionOfEntry_mem_nodesOf isNode isFunction
    · intro function isHandler
      exact ScopeTree.actionHandler_mem_nodesOf isNode isHandler
  · intro function isNode site isSite
    exact siteIn_of_mem_nodesOf isNode isSite

/-- The action `load` of `resolvedStore`. -/
def loadEntry : Node :=
  .methodEntry (.plainKey ⟨19, 23⟩ (.identifier "load"))
    (.functionLike ⟨19, 47⟩ .ordinary none [.identifier ⟨"ctx", ⟨24, 27⟩⟩]
      [.member ⟨31, 44⟩ (.identifier ⟨"ctx", ⟨31, 34⟩⟩) "rootState"] [])

/-- The actions of `resolvedStore`. -/
def resolvedActions : Node :=
  .objectLiteral ⟨17, 75⟩
    [loadEntry,
      .methodEntry (.plainKey ⟨49, 53⟩ (.identifier "save"))
        (.functionLike ⟨49, 73⟩ .ordinary none
          [.objectPattern ⟨54, 69⟩ [.shorthand ⟨"rootGetters", ⟨56, 67⟩⟩]] [] [])]

/-- The file
```
const actions = { load(ctx) { ctx.rootState; }, save({ rootGetters }) {} };
export default { state: {}, actions, getters: { total: (s, g, r) => r } };
commit('a', 0, { root: true });
```
whose actions stand in another literal than its store. -/
def resolvedStore : ParsedSource :=
  { span := ⟨1, 183⟩
    items := [
      .variableList ⟨1, 75⟩ .lexical
        [.declarator (.identifier ⟨"actions", ⟨7, 14⟩⟩) (some resolvedActions)],
      .objectLiteral ⟨92, 150⟩
        [.keyValue (.plainKey ⟨94, 99⟩ (.identifier "state")) (.objectLiteral ⟨101, 103⟩ []),
          .shorthand ⟨"actions", ⟨105, 112⟩⟩,
          .keyValue (.plainKey ⟨114, 121⟩ (.identifier "getters"))
            (.objectLiteral ⟨123, 148⟩
              [.keyValue (.plainKey ⟨125, 130⟩ (.identifier "total"))
                (.functionLike ⟨132, 146⟩ .concise none
                  [.identifier ⟨"s", ⟨133, 134⟩⟩, .identifier ⟨"g", ⟨136, 137⟩⟩,
                    .identifier ⟨"r", ⟨139, 140⟩⟩]
                  [.identifier ⟨"r", ⟨145, 146⟩⟩] [])])],
      .call ⟨152, 182⟩ (.identifier ⟨"commit", ⟨152, 158⟩⟩)
        [.literal ⟨159, 162⟩ (.string (some "a")), .literal ⟨164, 165⟩ .other,
          .objectLiteral ⟨167, 181⟩
            [.keyValue (.plainKey ⟨169, 173⟩ (.identifier "root"))
              (.literal ⟨175, 179⟩ (.boolean true))]] []]
    comments := []
    source := ⟨1, ""⟩
    text := "" }

/-- The places of the diagnostics of `resolvedStore`, in their order. -/
def resolvedStorePlaces : List (Rule × Span) :=
  [(.requireDoc, ⟨19, 23⟩), (.requireDoc, ⟨49, 53⟩), (.rootAssets, ⟨31, 44⟩),
    (.rootAssets, ⟨56, 67⟩), (.rootAssets, ⟨132, 146⟩), (.rootCalls, ⟨152, 182⟩)]

theorem pointsAt_of_lint_resolvedStore :
    (resolvedStore.lint "store.js" { actions := true } Rule.checks).diagnostics.map
        (fun diagnostic => (diagnostic.rule, diagnostic.span)) = resolvedStorePlaces ∧
      (∀ place ∈ resolvedStorePlaces, PointsAt resolvedStore.items place.1 place.2) ∧
      resolvedActions ∈ Node.nodesOf .whole resolvedStore.items ∧
      Node.EntryIn resolvedStore.items loadEntry ∧
      ∃ function ∈ Node.nodesOf .whole resolvedStore.items,
        (ScopeTree.build resolvedStore.span resolvedStore.items).actionHandler loadEntry =
            .ok (some function) ∧
          Node.SiteIn resolvedStore.items ⟨⟨31, 44⟩, rootState⟩ := by
  obtain ⟨points, kept, followed, sites⟩ :=
    pointsAt_of_lint resolvedStore "store.js" { actions := true } Rule.checks
  have places : (resolvedStore.lint "store.js" { actions := true } Rule.checks).diagnostics.map
      (fun diagnostic => (diagnostic.rule, diagnostic.span)) = resolvedStorePlaces := by
    decide
  have isSection :
      Node.shorthand ⟨"actions", ⟨105, 112⟩⟩ ∈ Node.nodesOf .whole resolvedStore.items := by
    simp [resolvedStore, Node.nodesOf_cons, Node.parts, Extent.aside]
  have isKept := kept _ (Array.mem_of_getElem? (i := 0) rfl)
    (.of ⟨"actions", ⟨7, 14⟩⟩ (.binding (some resolvedActions)))
    (List.mem_of_getElem? (i := 0) rfl) resolvedActions rfl
  have isEntry := (followed _ isSection).1 _ rfl loadEntry (List.mem_of_getElem? (i := 0) rfl)
  have isFunction := (followed loadEntry isEntry.mem_nodesOf).2.2 _ rfl
  refine ⟨places, ?_, isKept, isEntry, _, isFunction, rfl, ?_⟩
  · rw [← places]
    intro place isPlace
    obtain ⟨diagnostic, member, rfl⟩ := List.mem_map.mp isPlace
    exact points diagnostic member
  · exact sites _ isFunction _ (by decide)

end StoreLint
