import StoreLint.Proofs.Scope.Innermost
import StoreLint.Proofs.Scope.Lexical
import StoreLint.Proofs.Scope.Locals

/-!
# The scopes inside the scope of a node

The scopes that a visit opens stand in the final tree just as the outlines of its node
say (`OfModule.scopes_stand`), so the scope of a visited node is known completely.  The
scopes inside it are those that the inner parts of the node open
(`OfModule.exists_opening_inside`): no later part of the module opens a scope there.
-/

namespace StoreLint

theorem Node.inner_eq_parts {node : Node} (closed : node.opening? = none) :
    node.inner = node.parts .scopes := by
  rw [← heads_append_inner, heads_of_not_opening closed, List.nil_append]

theorem drop_of_append_standing {first second scopes : List Scope}
    (standing : first ++ second <+: scopes) : second <+: scopes.drop first.length := by
  obtain ⟨rest, rfl⟩ := standing
  simp

/-- A scope that is opened later lies inside none of the scopes that were opened on the way from
the earlier tree. -/
theorem ScopeTree.Grown.index_lt_of_mem_ancestorIds {tree later : ScopeTree}
    {current outer index : Nat}
    (grown : tree.Grown current later) (openAt : tree.OpenAt current) (notOuter : current < outer)
    (old : outer < tree.size) (member : outer ∈ later.ancestorIds index) : index < tree.size := by
  by_contra new
  rcases grown.mem_ancestorIds_of_new openAt (Nat.le_of_not_lt new) member with isNew | isOuter
  · omega
  · have smaller := openAt.wellFormed.le_of_mem_ancestorIds isOuter
    omega

/-- The variables of a list of declarations hold the declarations of their name. -/
theorem Variable.definitionsOf_ofDefinitions (name : String) (definitions : List Definition) :
    (((ofDefinitions definitions).find? fun found => found.name == name).map
        Variable.definitions).getD [] =
      definitions.filter fun definition => definition.name == name := by
  have folded : ∀ declared : List Variable,
      (((definitions.foldl (fun declared definition =>
          declareIn definition.name definition declared) declared).find?
            fun found => found.name == name).map Variable.definitions).getD [] =
        ((declared.find? fun found => found.name == name).map Variable.definitions).getD [] ++
          definitions.filter fun definition => definition.name == name := by
    induction definitions with
    | nil => simp
    | cons definition definitions induction =>
        intro declared
        rw [List.foldl_cons, induction, find?_declareIn, List.append_assoc]
        by_cases same : definition.name = name
        · simp [same]
        · simp [same, Ne.symm same]
  simpa [ofDefinitions] using folded []

theorem Variable.definitions_of_find? {definitions : List Definition} {name : String}
    {found : Variable} (isFound : (ofDefinitions definitions).find? (fun declared =>
      declared.name == name) = some found) :
    found.definitions = definitions.filter fun definition => definition.name == name := by
  have listed := definitionsOf_ofDefinitions name definitions
  rw [isFound] at listed
  exact listed

theorem Variable.exists_find?_of_mem {definitions : List Definition} {definition : Definition}
    (member : definition ∈ definitions) :
    ∃ found, (ofDefinitions definitions).find? (fun declared =>
      declared.name == definition.name) = some found ∧ definition ∈ found.definitions := by
  have listed := definitionsOf_ofDefinitions definition.name definitions
  have isListed : definition ∈ definitions.filter fun other => other.name == definition.name :=
    List.mem_filter.mpr ⟨member, by simp⟩
  rw [← listed] at isListed
  cases isFound : (ofDefinitions definitions).find? fun declared =>
      declared.name == definition.name with
  | none => simp [isFound] at isListed
  | some found =>
      rw [isFound] at isListed
      exact ⟨found, rfl, isListed⟩

namespace Visit

theorem size_entered_of_opening {visit : Visit} {kind : ScopeKind}
    (opens : visit.node.opening? = some kind) : visit.entered.size = visit.inside + 1 := by
  rw [entered_of_opening opens, ScopeTree.size_opened, inside_of_opening opens]

theorem size_entered_of_not_opening {visit : Visit} (closed : visit.node.opening? = none) :
    visit.entered.size = visit.tree.size := by
  rw [entered_of_not_opening closed, ScopeTree.size_declareList]

/-- One of several nodes that are visited in a row: where its scopes stand. -/
theorem scopes_stand_of_split {tree : ScopeTree} {current : Nat} (openAt : tree.OpenAt current)
    {nodes before after : List Node} {part : Node} (split : nodes = before ++ part :: after)
    {scopes : List Scope}
    (standing : Outline.scopesList current tree.size (nodes.flatMap Node.outlines) <+:
      scopes.drop tree.size) :
    Outline.scopesList current (tree.visitList current before).size part.outlines <+:
      scopes.drop (tree.visitList current before).size := by
  rw [split, List.flatMap_append, List.flatMap_cons, Outline.scopesList_append] at standing
  have behind := drop_of_append_standing standing
  rw [List.drop_drop, Outline.scopesList_append] at behind
  rw [ScopeTree.visitList_eq before openAt, ScopeTree.size_adjoin, ScopeTree.size_declareEach]
  exact (List.prefix_append _ _).trans behind

/-- Behind the scopes of the heads there is the scope of the node, and behind it those of the
inner parts. -/
theorem scopes_stand_of_opening {visit : Visit} (openAt : visit.tree.OpenAt visit.current)
    {kind : ScopeKind} (opens : visit.node.opening? = some kind) {scopes : List Scope}
    (standing : Outline.scopesList visit.current visit.tree.size visit.node.outlines <+:
      scopes.drop visit.tree.size) :
    Outline.scopesList visit.current visit.tree.size (visit.node.heads.flatMap Node.outlines) <+:
        scopes.drop visit.tree.size ∧
      { id := visit.inside, kind, span := visit.node.span, parent := some visit.current
        declared := Variable.ofDefinitions (visit.node.held kind) } ::
        Outline.scopesList visit.inside visit.entered.size
          (visit.node.inner.flatMap Node.outlines) <+: scopes.drop visit.inside := by
  have insideEq : visit.inside = visit.tree.size +
      (Outline.scopesList visit.current visit.tree.size
        (visit.node.heads.flatMap Node.outlines)).length := by
    rw [inside_of_opening opens, ScopeTree.visitList_eq visit.node.heads openAt,
      ScopeTree.size_adjoin, ScopeTree.size_declareEach]
  have enteredEq := size_entered_of_opening opens
  rw [Node.outlines_of_opening opens, Outline.scopesList_append,
    Outline.scopesList_singleton, ← insideEq, Outline.scopes, ← enteredEq] at standing
  have behind := drop_of_append_standing standing
  rw [List.drop_drop, ← insideEq] at behind
  exact ⟨(List.prefix_append _ _).trans standing, behind⟩

theorem scopes_stand_inside {visit : Visit} (openAt : visit.tree.OpenAt visit.current)
    {scopes : List Scope}
    (standing : Outline.scopesList visit.current visit.tree.size visit.node.outlines <+:
      scopes.drop visit.tree.size) :
    Outline.scopesList visit.inside visit.entered.size
      (visit.node.inner.flatMap Node.outlines) <+: scopes.drop visit.entered.size := by
  cases opens : visit.node.opening? with
  | none =>
      rw [Node.outlines_of_not_opening opens] at standing
      rw [size_entered_of_not_opening opens, inside_of_not_opening opens, Node.inner_eq_parts opens]
      exact standing
  | some kind =>
      have behind := (scopes_stand_of_opening openAt opens standing).2
      rw [← List.singleton_append] at behind
      have further := drop_of_append_standing behind
      rw [List.drop_drop] at further
      rw [size_entered_of_opening opens] at further ⊢
      exact further

theorem Makes.grown {visit next : Visit} (makes : visit.Makes next)
    (openAt : visit.tree.OpenAt visit.current) : next.result.Grown next.current visit.result := by
  rcases makes with head | inner
  · cases head with
    | @head before after part split =>
        cases opens : visit.node.opening? with
        | none => simp [Node.heads_of_not_opening opens] at split
        | some kind =>
            have start := ScopeTree.grown_visitList before openAt
            have step := ScopeTree.grown_visit part start.openAt
            have heads := ScopeTree.grown_visitList after step.openAt
            rw [← ScopeTree.visitList, ← ScopeTree.visitList_append, ← split] at heads
            have inside := ScopeTree.grown_visitList visit.node.inner
              (heads.openAt.opened kind visit.node)
            rw [result_eq visit, entered_of_opening opens, inside_of_opening opens]
            exact heads.trans inside.of_opened
  · cases inner with
    | @inner before after part split =>
        have start := ScopeTree.grown_visitList before (openAt_entered openAt).1
        have step := ScopeTree.grown_visit part start.openAt
        have rest := ScopeTree.grown_visitList after step.openAt
        rw [← ScopeTree.visitList, ← ScopeTree.visitList_append, ← split, ← result_eq] at rest
        exact rest

section OfModule

variable {span : Span} {items : List Node}

/-- The scopes that a visit opens stand behind those that were there before it. -/
theorem OfModule.scopes_stand {visit : Visit} (made : OfModule span items visit) :
    Outline.scopesList visit.current visit.tree.size visit.node.outlines <+:
      (ScopeTree.build span items).scopes.toList.drop visit.tree.size := by
  induction made with
  | item split =>
      apply scopes_stand_of_split (ScopeTree.openAt_ofModule span) split
      rw [ScopeTree.build_eq_ofOutlines]
      exact List.prefix_refl _
  | @part visit next made makes induction =>
      have openAt := made.openAt.1
      rcases makes with head | inner
      · cases head with
        | head split =>
            cases opens : visit.node.opening? with
            | none => simp [Node.heads_of_not_opening opens] at split
            | some kind =>
                apply scopes_stand_of_split openAt split
                exact (scopes_stand_of_opening openAt opens induction).1
      · cases inner with
        | inner split =>
            apply scopes_stand_of_split (openAt_entered openAt).1 split
            exact scopes_stand_inside openAt induction

/-- The scope of a visited node in the tree of the module. -/
theorem OfModule.getElem?_inside {visit : Visit} (made : OfModule span items visit)
    {kind : ScopeKind} (opens : visit.node.opening? = some kind) :
    (ScopeTree.build span items).scopes[visit.inside]? =
      some { id := visit.inside, kind, span := visit.node.span, parent := some visit.current
             declared := Variable.ofDefinitions (visit.node.held kind) } := by
  have standing := (scopes_stand_of_opening made.openAt.1 opens made.scopes_stand).2
  obtain ⟨rest, listed⟩ := standing
  rw [← Array.getElem?_toList, ← Nat.add_zero visit.inside, ← List.getElem?_drop, ← listed]
  rfl

theorem OfModule.root_lt_inside {visit : Visit} (made : OfModule span items visit)
    {kind : ScopeKind} (opens : visit.node.opening? = some kind) :
    ScopeTree.root < visit.inside := by
  have bounds := inside_bounds made.openAt.1 opens
  have nonempty := made.openAt.1.wellFormed.nonempty
  unfold ScopeTree.root
  omega

/-- The scopes inside a scope that a visit opens are opened by the visit. -/
theorem OfModule.lt_size_result {visit : Visit} (made : OfModule span items visit)
    {outer index : Nat} (new : visit.tree.size ≤ outer) (old : outer < visit.result.size)
    (member : outer ∈ (ScopeTree.build span items).ancestorIds index) :
    index < visit.result.size := by
  induction made with
  | @item before after node split =>
      have start := ScopeTree.grown_visitList before (ScopeTree.openAt_ofModule span)
      have step := ScopeTree.grown_visit node start.openAt
      have rest := ScopeTree.grown_visitList after step.openAt
      rw [← ScopeTree.visitList, ← ScopeTree.visitList_append, ← split] at rest
      have behind := start.openAt.lt_size
      exact rest.index_lt_of_mem_ancestorIds step.openAt (Nat.lt_of_lt_of_le behind new) old member
  | @part visit next made makes induction =>
      have openAt := made.openAt.1
      obtain ⟨start, older, rest⟩ := makes.openAt openAt
      have bigger := older.size_le
      have smaller := rest.size_le
      have inside := induction (Nat.le_trans bigger new) (Nat.lt_of_lt_of_le old smaller)
      have visited := ScopeTree.grown_visit visit.node openAt
      have sameChain := made.openAt.2.ancestorIds_eq visited.openAt.wellFormed
        (ScopeTree.openAt_build span items).wellFormed inside
      rw [sameChain] at member
      exact (makes.grown openAt).index_lt_of_mem_ancestorIds
        (ScopeTree.grown_visit next.node start).openAt (Nat.lt_of_lt_of_le start.lt_size new) old
        member

/-- Inside the scope of a node there are the scopes that the inner parts of the node open. -/
theorem OfModule.exists_opening_inside {visit : Visit} (made : OfModule span items visit)
    {kind : ScopeKind} (opens : visit.node.opening? = some kind) {index : Nat} {scope : Scope}
    (found : (ScopeTree.build span items).scopes[index]? = some scope)
    (member : visit.inside ∈ (ScopeTree.build span items).ancestorIds index)
    (notOwn : index ≠ visit.inside) :
    ∃ node ∈ Node.nodesOf .scopes visit.node.inner, node.opening? = some scope.kind ∧
      scope.span = node.span ∧ scope.declared = Variable.ofDefinitions (node.held scope.kind) := by
  have openAt := made.openAt.1
  have wellFormed := (ScopeTree.openAt_build span items).wellFormed
  have lower := wellFormed.le_of_mem_ancestorIds member
  obtain ⟨new, old⟩ := inside_bounds openAt opens
  have upper := made.lt_size_result new old member
  have sizeEq := size_entered_of_opening opens
  have standing := scopes_stand_inside openAt made.scopes_stand
  have openInside := (openAt_entered openAt).1
  rw [result_eq, ScopeTree.visitList_eq visit.node.inner openInside, ScopeTree.size_adjoin,
    ScopeTree.size_declareEach] at upper
  have isOpened : scope ∈ Outline.scopesList visit.inside visit.entered.size
      (visit.node.inner.flatMap Node.outlines) := by
    obtain ⟨rest, listed⟩ := standing
    have offset : index = visit.entered.size + (index - visit.entered.size) := by omega
    rw [← Array.getElem?_toList, offset, ← List.getElem?_drop, ← listed,
      List.getElem?_append_left (by omega)] at found
    exact List.mem_of_getElem? found
  apply Node.exists_opening_of_mem
  apply (Node.perm_openedScopes_of_forall
    (fun node (_ : node ∈ visit.node.inner) => node.perm_openedScopes) _ _).mem_iff.mp
  exact List.mem_map_of_mem isOpened

end OfModule

end Visit

namespace ScopeTree

variable {span : Span} {items : List Node}

/-- Of two scopes on a chain, the one that comes first lies inside the other. -/
theorem OpenAt.mem_ancestorIds_of_chain {tree : ScopeTree} {current index : Nat}
    (openAt : tree.OpenAt current) {inner outer : List Scope} {scope around : Scope}
    (chain : tree.ancestors index = inner ++ scope :: outer) (isOuter : around ∈ outer) :
    around.id < scope.id ∧ around.id ∈ tree.ancestorIds scope.id := by
  have onChain : scope.id ∈ tree.ancestorIds index :=
    List.mem_map_of_mem (by simp [chain])
  have aroundOnChain : around.id ∈ tree.ancestorIds index :=
    List.mem_map_of_mem (by simp [chain, isOuter])
  have smaller : around.id < scope.id := by
    have sorted := openAt.wellFormed.pairwise_ancestorIds index
    rw [ancestorIds, chain, List.pairwise_map, List.pairwise_append, List.pairwise_cons] at sorted
    exact sorted.2.1.1 around isOuter
  exact ⟨smaller, openAt.preorder (Nat.le_of_lt smaller)
    (openAt.wellFormed.le_of_mem_ancestorIds onChain) aroundOnChain⟩

/-- The scope at a position inside a node lies inside the scope of the node. -/
theorem mem_ancestors_scopeAt (laidOut : LaidOut items) {position : Nat}
    (notCrossed : ¬Node.CrossedAt position items) {visit : Visit}
    (made : Visit.OfModule span items visit) {kind : ScopeKind}
    (opens : visit.node.opening? = some kind)
    (contains : visit.node.span.contains position = true) {scope : Scope}
    (isOwn : (build span items).scopes[visit.inside]? = some scope) :
    scope ∈ (build span items).ancestors ((build span items).scopeAt position) := by
  have openAt := openAt_build span items
  have innermost : (build span items).InnermostAt position := by
    apply (openAt.innermostAt_iff position).mpr
    rw [crossing_build laidOut position]
    exact notCrossed
  apply innermost
  rw [openAt.wellFormed.mem_scopesAround_iff, openAt.wellFormed.id_eq isOwn]
  refine ⟨made.root_lt_inside opens, isOwn, ?_⟩
  rw [made.getElem?_inside opens] at isOwn
  cases isOwn
  exact contains

/-- The scope at a position inside a function lies inside the scope of the function, and a name
that is declared in the function is found there or in a scope further inside. -/
theorem findVariable_inside (laidOut : LaidOut items) {position : Nat}
    (notCrossed : ¬Node.CrossedAt position items) {visit : Visit}
    (made : Visit.OfModule span items visit) {kind : ScopeKind}
    (opens : visit.node.opening? = some kind)
    (contains : visit.node.span.contains position = true) {definition : Definition}
    (isHeld : definition ∈ visit.node.held kind) :
    ∃ found, (build span items).findVariable ((build span items).scopeAt position)
        definition.name = some found ∧
      (definition ∈ found.definitions ∨
        ∃ node ∈ Node.nodesOf .scopes visit.node.inner, ∃ kind, node.opening? = some kind ∧
          node.span.contains position = true ∧
          (Variable.ofDefinitions (node.held kind)).find? (fun declared =>
            declared.name == definition.name) = some found) := by
  have openAt := openAt_build span items
  have wellFormed := openAt.wellFormed
  have inside := wellFormed.scopeAt_lt_size position
  have atOwn := made.getElem?_inside opens
  obtain ⟨own, ownFinds, inOwn⟩ := Variable.exists_find?_of_mem isHeld
  have inChain := mem_ancestors_scopeAt laidOut notCrossed made opens contains atOwn
  cases isFound : (build span items).findVariable ((build span items).scopeAt position)
      definition.name with
  | none =>
      have missing := List.findSome?_eq_none_iff.mp isFound _ inChain
      cases ownFinds.symm.trans missing
  | some found =>
      refine ⟨found, rfl, ?_⟩
      obtain ⟨inner, scope, outer, chain, notBefore, holds, atScope⟩ :=
        getElem?_of_findVariable wellFormed inside isFound
      rw [chain, List.mem_append, List.mem_cons] at inChain
      rcases inChain with isInner | same | isOuter
      · cases ownFinds.symm.trans (notBefore _ isInner)
      · left
        rw [← same] at holds
        cases ownFinds.symm.trans holds
        exact inOwn
      · right
        -- The scope that has the name is a scope inside the one of the node.
        obtain ⟨smaller, around⟩ := openAt.mem_ancestorIds_of_chain chain isOuter
        obtain ⟨node, isNode, opensNode, spanEq, declaredEq⟩ :=
          made.exists_opening_inside opens atScope around (Nat.ne_of_gt smaller)
        refine ⟨node, isNode, scope.kind, opensNode, ?_, ?_⟩
        · rw [← spanEq]
          have notRoot := Nat.lt_trans (made.root_lt_inside opens) smaller
          exact contains_of_mem_ancestorIds_scopeAt (laidOut.encloses_of_mem .scopes)
            (List.mem_map_of_mem (by simp [chain])) (Nat.ne_of_gt notRoot) atScope
        · rw [← declaredEq]
          exact holds

end ScopeTree

end StoreLint
