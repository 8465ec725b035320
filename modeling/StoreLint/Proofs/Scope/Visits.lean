import StoreLint.Proofs.Scope.Growth

/-!
# The visits of a traversal

The scope tree of a module is built by visiting its nodes one inside the other.  A
`Visit` is the state in which the traversal comes to a node, `Visit.Makes` leads from
the visit of a node to the visits of its parts, and `Visit.OfModule` describes the
visits that are made for a module.  Every node of the module is visited, and the tree
that a visit leaves behind only grows until the traversal is over.
-/

namespace StoreLint

/-- The traversal comes to a node: the tree so far, and the scope that the node is visited in. -/
structure Visit where
  tree : ScopeTree
  current : Nat
  node : Node

namespace Visit

/-- The tree after the visit. -/
def result (visit : Visit) : ScopeTree := visit.tree.visit visit.current visit.node

/-- The scope that the inner parts of the node are visited in: the one that the node opens, if it
opens one. -/
def inside (visit : Visit) : Nat :=
  match visit.node.opening? with
  | some _ => (visit.tree.visitList visit.current visit.node.heads).size
  | none => visit.current

/-- The tree right before the inner parts of the node are visited. -/
def entered (visit : Visit) : ScopeTree :=
  match visit.node.opening? with
  | some kind =>
      (visit.tree.visitList visit.current visit.node.heads).opened visit.current kind visit.node
  | none =>
      visit.tree.declareList (visit.tree.bindingScope visit.current visit.node)
        visit.node.outerDefinitions

/-- The visit of a head of the node, which is outside of the scope that the node opens. -/
inductive MakesHead (visit : Visit) : Visit → Prop where
  | head {before after : List Node} {part : Node}
      (split : visit.node.heads = before ++ part :: after) :
      MakesHead visit ⟨visit.tree.visitList visit.current before, visit.current, part⟩

/-- The visit of an inner part of the node. -/
inductive MakesInside (visit : Visit) : Visit → Prop where
  | inner {before after : List Node} {part : Node}
      (split : visit.node.inner = before ++ part :: after) :
      MakesInside visit ⟨visit.entered.visitList visit.inside before, visit.inside, part⟩

/-- The visit of a part of the node. -/
def Makes (visit next : Visit) : Prop := visit.MakesHead next ∨ visit.MakesInside next

/-- The visits that are made for a module. -/
inductive OfModule (span : Span) (items : List Node) : Visit → Prop where
  | item {before after : List Node} {node : Node} (split : items = before ++ node :: after) :
      OfModule span items
        ⟨(ScopeTree.ofModule span).visitList ScopeTree.root before, ScopeTree.root, node⟩
  | part {visit next : Visit} (made : OfModule span items visit) (makes : visit.Makes next) :
      OfModule span items next

theorem inside_of_opening {visit : Visit} {kind : ScopeKind}
    (opens : visit.node.opening? = some kind) :
    visit.inside = (visit.tree.visitList visit.current visit.node.heads).size := by
  simp [inside, opens]

theorem entered_of_opening {visit : Visit} {kind : ScopeKind}
    (opens : visit.node.opening? = some kind) :
    visit.entered =
      (visit.tree.visitList visit.current visit.node.heads).opened visit.current kind
        visit.node := by
  simp [entered, opens]

theorem inside_of_not_opening {visit : Visit} (closed : visit.node.opening? = none) :
    visit.inside = visit.current := by
  simp [inside, closed]

theorem entered_of_not_opening {visit : Visit} (closed : visit.node.opening? = none) :
    visit.entered =
      visit.tree.declareList (visit.tree.bindingScope visit.current visit.node)
        visit.node.outerDefinitions := by
  simp [entered, closed]

/-- A visit ends with the visits of the inner parts. -/
theorem result_eq (visit : Visit) :
    visit.result = visit.entered.visitList visit.inside visit.node.inner := by
  cases opens : visit.node.opening? with
  | some kind =>
      rw [entered_of_opening opens, inside_of_opening opens]
      exact ScopeTree.visit_of_opening opens visit.tree visit.current
  | none =>
      have allInner : visit.node.inner = visit.node.parts .scopes := by
        rw [← Node.heads_append_inner, Node.heads_of_not_opening opens, List.nil_append]
      rw [entered_of_not_opening opens, inside_of_not_opening opens, allInner]
      exact ScopeTree.visit_of_not_opening opens visit.tree visit.current

theorem openAt_entered {visit : Visit} (openAt : visit.tree.OpenAt visit.current) :
    visit.entered.OpenAt visit.inside ∧ visit.tree.Extends visit.entered := by
  cases opens : visit.node.opening? with
  | some kind =>
      have heads := ScopeTree.grown_visitList visit.node.heads openAt
      rw [entered_of_opening opens, inside_of_opening opens]
      exact ⟨heads.openAt.opened kind visit.node,
        heads.extends_.trans (ScopeTree.extends_opened _ _ _ _)⟩
  | none =>
      have declared := openAt.grown_declareList
        (visit.tree.bindingScope visit.current visit.node) visit.node.outerDefinitions
      rw [entered_of_not_opening opens, inside_of_not_opening opens]
      exact ⟨declared.openAt, declared.extends_⟩

/-- One of several visits in a row: the tree it starts from, and what comes of the tree it leaves
behind. -/
theorem extends_visitList_split {tree : ScopeTree} {current : Nat} (openAt : tree.OpenAt current)
    {nodes before after : List Node} {part : Node} (split : nodes = before ++ part :: after) :
    (tree.visitList current before).OpenAt current ∧
      tree.Extends (tree.visitList current before) ∧
      ((tree.visitList current before).visit current part).Extends
        (tree.visitList current nodes) := by
  have start := ScopeTree.grown_visitList before openAt
  have step := ScopeTree.grown_visit part start.openAt
  have rest := ScopeTree.grown_visitList after step.openAt
  refine ⟨start.openAt, start.extends_, ?_⟩
  rw [split, ScopeTree.visitList_append, ScopeTree.visitList]
  exact rest.extends_

theorem MakesHead.openAt {visit next : Visit} (makes : visit.MakesHead next)
    (openAt : visit.tree.OpenAt visit.current) :
    next.tree.OpenAt next.current ∧ visit.tree.Extends next.tree ∧
      next.result.Extends visit.result := by
  cases makes with
  | @head before after part split =>
      obtain ⟨start, older, rest⟩ := extends_visitList_split openAt split
      refine ⟨start, older, rest.trans ?_⟩
      cases opens : visit.node.opening? with
      | none => simp [Node.heads_of_not_opening opens] at split
      | some kind =>
          have inner := ScopeTree.grown_visitList visit.node.inner (openAt_entered openAt).1
          rw [entered_of_opening opens] at inner
          rw [result_eq, entered_of_opening opens]
          exact (ScopeTree.extends_opened _ _ _ _).trans inner.extends_

theorem MakesInside.openAt {visit next : Visit} (makes : visit.MakesInside next)
    (openAt : visit.tree.OpenAt visit.current) :
    next.tree.OpenAt next.current ∧ visit.entered.Extends next.tree ∧
      next.result.Extends visit.result := by
  cases makes with
  | @inner before after part split =>
      obtain ⟨start, grown, rest⟩ := extends_visitList_split (openAt_entered openAt).1 split
      rw [result_eq visit]
      exact ⟨start, grown, rest⟩

/-- Visits of parts start from trees that the visit has made, and end before it ends. -/
theorem Makes.openAt {visit next : Visit} (makes : visit.Makes next)
    (openAt : visit.tree.OpenAt visit.current) :
    next.tree.OpenAt next.current ∧ visit.tree.Extends next.tree ∧
      next.result.Extends visit.result := by
  rcases makes with head | inner
  · exact head.openAt openAt
  · obtain ⟨start, grown, rest⟩ := inner.openAt openAt
    exact ⟨start, (openAt_entered openAt).2.trans grown, rest⟩

theorem Makes.mem_parts {visit next : Visit} (makes : visit.Makes next) :
    next.node ∈ visit.node.parts .scopes := by
  rcases makes with head | inner
  · cases head with
    | head split => exact Node.mem_parts_of_mem_heads (by simp [split])
  · cases inner with
    | inner split => exact Node.mem_parts_of_mem_inner (by simp [split])

theorem exists_makes (visit : Visit) {part : Node} (isPart : part ∈ visit.node.parts .scopes) :
    ∃ next, visit.Makes next ∧ next.node = part := by
  rw [← Node.heads_append_inner, List.mem_append] at isPart
  rcases isPart with inHeads | isInner
  · obtain ⟨before, after, split⟩ := List.append_of_mem inHeads
    exact ⟨_, .inl (.head split), rfl⟩
  · obtain ⟨before, after, split⟩ := List.append_of_mem isInner
    exact ⟨_, .inr (.inner split), rfl⟩

section OfModule

variable {span : Span} {items : List Node}

/-- A visit that is made for a module starts in an open scope, and the tree of the module has grown
from the tree that the visit leaves behind. -/
theorem OfModule.openAt {visit : Visit} (made : OfModule span items visit) :
    visit.tree.OpenAt visit.current ∧ visit.result.Extends (ScopeTree.build span items) := by
  induction made with
  | item split =>
      obtain ⟨start, _, rest⟩ :=
        extends_visitList_split (ScopeTree.openAt_ofModule span) split
      exact ⟨start, rest⟩
  | part made makes induction =>
      obtain ⟨start, _, rest⟩ := makes.openAt induction.1
      exact ⟨start, rest.trans induction.2⟩

theorem OfModule.nodesOf_subset {visit : Visit} (made : OfModule span items visit) :
    Node.nodesOf .scopes [visit.node] ⊆ Node.nodesOf .scopes items := by
  induction made with
  | item split => exact Node.nodesOf_singleton_subset (by simp [split])
  | part made makes induction =>
      exact List.Subset.trans (Node.nodesOf_child_subset makes.mem_parts) induction

/-- All nodes of a module are visited. -/
theorem OfModule.exists_of_mem {node : Node} (member : node ∈ Node.nodesOf .scopes items) :
    ∃ visit, OfModule span items visit ∧ visit.node = node := by
  have below : ∀ (top : Node) (visit : Visit), OfModule span items visit → visit.node = top →
      ∀ inner ∈ Node.nodesOf .scopes [top],
        ∃ next, OfModule span items next ∧ next.node = inner := by
    intro top
    induction top using Node.inductionOnParts .scopes with
    | step top induction =>
        intro visit made isTop inner isInner
        rcases Node.mem_nodesOf_singleton.mp isInner with rfl | isBelow
        · exact ⟨visit, made, isTop⟩
        · obtain ⟨child, isChild, place⟩ := Node.mem_nodesOf_iff.mp isBelow
          obtain ⟨next, makes, isNext⟩ := visit.exists_makes (isTop ▸ isChild)
          exact induction child isChild next (.part made makes) isNext inner
            (Node.mem_nodesOf_singleton.mpr place)
  obtain ⟨item, isItem, place⟩ := Node.mem_nodesOf_iff.mp member
  obtain ⟨before, after, split⟩ := List.append_of_mem isItem
  exact below item _ (.item split) rfl node (Node.mem_nodesOf_singleton.mpr place)

end OfModule

end Visit

end StoreLint
