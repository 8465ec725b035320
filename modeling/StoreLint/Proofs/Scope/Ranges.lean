import StoreLint.Proofs.Scope.Growth
import StoreLint.Proofs.Tree.Nesting

/-!
# The ranges of scopes

When the parts of every node lie inside its range, a scope that is opened while a
node is visited lies inside the range of the node, and every scope lies inside the
scope around it, the module scope apart.  Hence only scopes that contain a position
are looked at from there (`contains_of_mem_ancestorIds_scopeAt`).
-/

namespace StoreLint

namespace ScopeTree

/-- The new scopes of a tree lie inside the ranges of the nodes that were visited and inside each
other. -/
structure Ranged (tree later : ScopeTree) (nodes : List Node) : Prop where
  within : ∀ {index : Nat} {scope : Scope}, tree.size ≤ index →
    later.scopes[index]? = some scope → ∃ node ∈ nodes, scope.span.Within node.span
  nested : ∀ {index parent : Nat} {scope around : Scope}, tree.size ≤ parent →
    later.scopes[index]? = some scope → scope.parent = some parent →
      later.scopes[parent]? = some around → scope.span.Within around.span

theorem Ranged.of_same_size {tree later : ScopeTree} (wellFormed : later.WellFormed)
    (same : later.size = tree.size) (nodes : List Node) : tree.Ranged later nodes := by
  constructor
  · intro index scope new found
    have inside := lt_size_of_getElem? found
    omega
  · intro index parent scope around new found parentEq _
    have inside := lt_size_of_getElem? found
    have smaller := wellFormed.parent_lt found parentEq
    omega

theorem Ranged.trans {tree middle later : ScopeTree} {current : Nat} {first second : List Node}
    (openAt : tree.OpenAt current) (start : tree.Ranged middle first)
    (grown : middle.Grown current later) (rest : middle.Ranged later second) :
    tree.Ranged later (first ++ second) := by
  constructor
  · intro index scope new found
    by_cases inside : index < middle.size
    · obtain ⟨old, atOld, grows⟩ := grown.extends_.grows_of_lt inside found
      obtain ⟨node, member, within⟩ := start.within new atOld
      exact ⟨node, by simp [member], grows.span_eq ▸ within⟩
    · obtain ⟨node, member, within⟩ := rest.within (Nat.le_of_not_lt inside) found
      exact ⟨node, by simp [member], within⟩
  · intro index parent scope around new found parentEq atParent
    have smaller := grown.openAt.wellFormed.parent_lt found parentEq
    by_cases inside : index < middle.size
    · obtain ⟨old, atOld, grows⟩ := grown.extends_.grows_of_lt inside found
      obtain ⟨oldAround, atOldParent, growsAround⟩ :=
        grown.extends_.grows_of_lt (Nat.lt_trans smaller inside) atParent
      have parentOld : old.parent = some parent := grows.parent_eq.symm.trans parentEq
      have within := start.nested new atOld parentOld atOldParent
      rw [grows.span_eq, growsAround.span_eq]
      exact within
    · obtain ⟨other, otherEq, place⟩ := grown.parent_of_new (Nat.le_of_not_lt inside) found
      have same : other = parent := Option.some.inj (otherEq.symm.trans parentEq)
      have lower := openAt.lt_size
      have newParent : middle.size ≤ parent := by omega
      exact rest.nested newParent found parentEq atParent

/-- The scope of a node lies where the node lies, and what is opened inside lies inside it. -/
theorem Ranged.of_opened {tree later : ScopeTree} {current : Nat} {kind : ScopeKind} {node : Node}
    (encloses : node.Encloses)
    (grown : (tree.opened current kind node).Grown tree.size later)
    (inside : (tree.opened current kind node).Ranged later node.inner) :
    tree.Ranged later [node] := by
  obtain ⟨scope, found, _, spanEq, _⟩ := getElem?_opened tree current kind node
  obtain ⟨own, atOwn, grows⟩ := grown.extends_.grows found
  have ownSpan : own.span = node.span := grows.span_eq.trans spanEq
  have ranges : ∀ {index other}, tree.size ≤ index → later.scopes[index]? = some other →
      other.span.Within node.span := by
    intro index other new atIndex
    by_cases isOwn : index = tree.size
    · subst isOwn
      have same : other = own := Option.some.inj (atIndex.symm.trans atOwn)
      exact same ▸ ownSpan ▸ Span.Within.refl _
    · obtain ⟨part, member, within⟩ := inside.within (by rw [size_opened]; omega) atIndex
      exact within.trans (encloses.within (Node.mem_parts_of_mem_inner member))
  constructor
  · intro index other new atIndex
    exact ⟨node, by simp, ranges new atIndex⟩
  · intro index parent other around new atIndex parentEq atParent
    have smaller := grown.openAt.wellFormed.parent_lt atIndex parentEq
    by_cases isOwn : parent = tree.size
    · subst isOwn
      have same : around = own := Option.some.inj (atParent.symm.trans atOwn)
      rw [same, ownSpan]
      exact ranges (by omega) atIndex
    · exact inside.nested (by rw [size_opened]; omega) atIndex parentEq atParent

/-- List counterpart of `ranged_visit`, from what is known of the nodes of the list. -/
theorem ranged_visitList_of_forall {nodes : List Node} {current : Nat}
    (each : ∀ node ∈ nodes, ∀ tree : ScopeTree, tree.OpenAt current →
      tree.Ranged (tree.visit current node) [node])
    {tree : ScopeTree} (openAt : tree.OpenAt current) :
    tree.Ranged (tree.visitList current nodes) nodes := by
  induction nodes generalizing tree with
  | nil => exact visitList.eq_1 tree current ▸ .of_same_size openAt.wellFormed rfl []
  | cons node nodes induction =>
      rw [visitList]
      have first := grown_visit node openAt
      have rest := induction (fun other member => each other (by simp [member])) first.openAt
      exact (each node (by simp) tree openAt).trans openAt (grown_visitList nodes first.openAt)
        rest

/-- A larger list of nodes gives a weaker statement, and so does a node around them. -/
theorem Ranged.mono {tree later : ScopeTree} {nodes others : List Node}
    (ranged : tree.Ranged later nodes)
    (covered : ∀ node ∈ nodes, ∃ other ∈ others, node.span.Within other.span) :
    tree.Ranged later others := by
  refine ⟨?_, ranged.nested⟩
  intro index scope new found
  obtain ⟨node, member, within⟩ := ranged.within new found
  obtain ⟨other, isOther, further⟩ := covered node member
  exact ⟨other, isOther, within.trans further⟩

theorem ranged_visit (node : Node)
    (encloses : ∀ inner ∈ Node.nodesOf .scopes [node], inner.Encloses)
    {tree : ScopeTree} {current : Nat} (openAt : tree.OpenAt current) :
    tree.Ranged (tree.visit current node) [node] := by
  induction node using Node.inductionOnParts .scopes generalizing tree current with
  | step node induction =>
      have own : node.Encloses := encloses node (Node.mem_nodesOf_of_mem (by simp))
      have ofChild : ∀ child ∈ node.parts .scopes, ∀ {tree : ScopeTree} {current : Nat},
          tree.OpenAt current → tree.Ranged (tree.visit current child) [child] := by
        intro child member tree current openAt
        refine induction child member ?_ openAt
        exact fun inner innerMember => encloses inner (Node.nodesOf_child_subset member innerMember)
      have covered : ∀ parts : List Node, parts ⊆ node.parts .scopes →
          ∀ part ∈ parts, ∃ other ∈ [node], part.span.Within other.span :=
        fun parts subset part member => ⟨node, by simp, own.within (subset member)⟩
      cases opens : node.opening? with
      | none =>
          rw [visit_of_not_opening opens]
          have first := openAt.grown_declareList (tree.bindingScope current node)
            node.outerDefinitions
          have rest := ranged_visitList_of_forall (fun child member _ => ofChild child member)
            first.openAt
          have whole := (Ranged.of_same_size first.openAt.wellFormed
            (size_declareList _ _ _) []).trans openAt
            (grown_visitList (node.parts .scopes) first.openAt) rest
          exact whole.mono (covered (node.parts .scopes) (List.Subset.refl _))
      | some kind =>
          rw [visit_of_opening opens]
          have headsGrown := grown_visitList node.heads openAt
          have heads := ranged_visitList_of_forall
            (fun child member _ => ofChild child (Node.mem_parts_of_mem_heads member)) openAt
          have openInside := headsGrown.openAt.opened kind node
          have inside := ranged_visitList_of_forall
            (fun child member _ => ofChild child (Node.mem_parts_of_mem_inner member)) openInside
          have grownInside := grown_visitList node.inner openInside
          have whole := heads.trans openAt grownInside.of_opened
            (Ranged.of_opened own grownInside inside)
          refine whole.mono ?_
          intro part member
          rcases List.mem_append.mp member with inHeads | isNode
          · exact ⟨node, by simp, own.within (Node.mem_parts_of_mem_heads inHeads)⟩
          · exact ⟨node, by simp, List.mem_singleton.mp isNode ▸ Span.Within.refl _⟩

theorem ranged_visitList (nodes : List Node)
    (encloses : ∀ node ∈ Node.nodesOf .scopes nodes, node.Encloses)
    {tree : ScopeTree} {current : Nat} (openAt : tree.OpenAt current) :
    tree.Ranged (tree.visitList current nodes) nodes := by
  refine ranged_visitList_of_forall ?_ openAt
  intro node member tree openAt
  refine ranged_visit node ?_ openAt
  exact fun inner innerMember => encloses inner (Node.nodesOf_singleton_subset member innerMember)

/-- In a module every scope lies inside the scope around it, unless that is the module scope. -/
theorem within_of_mem_ancestorIds {span : Span} {items : List Node}
    (encloses : ∀ node ∈ Node.nodesOf .scopes items, node.Encloses) {index outer : Nat}
    {scope around : Scope} (member : outer ∈ (build span items).ancestorIds index)
    (notRoot : outer ≠ root) (found : (build span items).scopes[index]? = some scope)
    (atOuter : (build span items).scopes[outer]? = some around) :
    scope.span.Within around.span := by
  have ranged : (ofModule span).Ranged (build span items) items :=
    ranged_visitList items encloses (openAt_ofModule span)
  have wellFormed := (openAt_build span items).wellFormed
  have inside := lt_size_of_getElem? found
  revert member scope
  refine wellFormed.chainInduction
    (motive := fun index => ∀ {scope : Scope}, outer ∈ (build span items).ancestorIds index →
      (build span items).scopes[index]? = some scope → scope.span.Within around.span)
    ?_ index inside
  intro index own atIndex induction scope member found
  have isOwn : own = scope := Option.some.inj (atIndex.symm.trans found)
  subst isOwn
  rcases (wellFormed.mem_ancestorIds_iff found).mp member with rfl | ⟨parent, parentEq, above⟩
  · have same : around = own := Option.some.inj (atOuter.symm.trans found)
    exact same ▸ Span.Within.refl _
  · have smaller := wellFormed.parent_lt found parentEq
    obtain ⟨between, atParent⟩ := exists_getElem?_of_lt
      (Nat.lt_trans smaller (lt_size_of_getElem? found))
    have positive : root < outer := Nat.pos_of_ne_zero notRoot
    have upper := wellFormed.le_of_mem_ancestorIds above
    have first : own.span.Within between.span :=
      ranged.nested (Nat.lt_of_lt_of_le positive upper) found parentEq atParent
    exact first.trans (induction parent parentEq above atParent)

/-- The scope at a position is the last one that contains the position; it is the module scope if
no other scope contains the position. -/
theorem WellFormed.scopeAt_spec {tree : ScopeTree} (wellFormed : tree.WellFormed)
    (position : Nat) :
    (∀ {index : Nat} {scope : Scope}, tree.scopeAt position < index →
        tree.scopes[index]? = some scope → scope.span.contains position = false) ∧
      (tree.scopeAt position = root ∨ ∃ last, tree.scopes[tree.scopeAt position]? = some last ∧
        last.span.contains position = true) := by
  obtain ⟨first, rest, listed⟩ : ∃ first rest, tree.scopes.toList = first :: rest := by
    cases listed : tree.scopes.toList with
    | nil =>
        have nonempty := wellFormed.nonempty
        simp [size, ← Array.length_toList, listed] at nonempty
    | cons first rest => exact ⟨first, rest, rfl⟩
  have atIndex : ∀ index, tree.scopes[index + 1]? = rest[index]? := by
    intro index
    rw [← Array.getElem?_toList, listed, List.getElem?_cons_succ]
  unfold scopeAt
  rw [listed, List.tail_cons]
  split
  · next last found =>
      obtain ⟨contains, after, before, split_, none_after⟩ :=
        List.find?_eq_some_iff_append.mp found
      have restEq : rest = before.reverse ++ last :: after.reverse := by
        rw [← List.reverse_reverse rest, split_]
        simp
      have atLast : tree.scopes[before.length + 1]? = some last := by
        rw [atIndex, restEq]
        simp
      have idEq : last.id = before.length + 1 := wellFormed.id_eq atLast
      refine ⟨?_, .inr ⟨last, idEq ▸ atLast, contains⟩⟩
      intro index scope later atScope
      rw [idEq] at later
      obtain ⟨offset, rfl⟩ : ∃ offset, index = before.length + 1 + offset + 1 :=
        ⟨index - before.length - 2, by omega⟩
      have inRest : after.reverse[offset]? = some scope := by
        rw [atIndex, restEq, List.getElem?_append_right (by simp; omega)] at atScope
        simpa [Nat.add_assoc, Nat.add_comm 1 offset] using atScope
      have member : scope ∈ after := List.mem_reverse.mp (List.mem_of_getElem? inRest)
      simpa using none_after scope member
  · next missing =>
      refine ⟨?_, .inl rfl⟩
      intro index scope later atScope
      obtain ⟨offset, rfl⟩ := Nat.exists_eq_succ_of_ne_zero (Nat.ne_zero_of_lt later)
      have member : scope ∈ rest := List.mem_of_getElem? ((atIndex offset).symm.trans atScope)
      simpa using List.find?_eq_none.mp missing scope (List.mem_reverse.mpr member)

theorem WellFormed.scopeAt_lt_size {tree : ScopeTree} (wellFormed : tree.WellFormed)
    (position : Nat) : tree.scopeAt position < tree.size := by
  rcases (wellFormed.scopeAt_spec position).2 with isRoot | ⟨last, found, _⟩
  · exact isRoot ▸ wellFormed.nonempty
  · exact lt_size_of_getElem? found

theorem WellFormed.le_scopeAt {tree : ScopeTree} (wellFormed : tree.WellFormed)
    {index position : Nat} {scope : Scope} (found : tree.scopes[index]? = some scope)
    (contains : scope.span.contains position = true) : index ≤ tree.scopeAt position := by
  by_contra later
  have missing := (wellFormed.scopeAt_spec position).1 (Nat.lt_of_not_le later) found
  rw [contains] at missing
  cases missing

/-- Of the scopes around a position, only the module scope need not contain it. -/
theorem contains_of_mem_ancestorIds_scopeAt {span : Span} {items : List Node}
    (encloses : ∀ node ∈ Node.nodesOf .scopes items, node.Encloses) {position outer : Nat}
    {around : Scope}
    (member : outer ∈ (build span items).ancestorIds ((build span items).scopeAt position))
    (notRoot : outer ≠ root) (atOuter : (build span items).scopes[outer]? = some around) :
    around.span.contains position = true := by
  have wellFormed := (openAt_build span items).wellFormed
  rcases (wellFormed.scopeAt_spec position).2 with isRoot | ⟨last, found, contains⟩
  · rw [isRoot] at member
    have upper := wellFormed.le_of_mem_ancestorIds member
    exact absurd (Nat.le_zero.mp upper) notRoot
  · exact (within_of_mem_ancestorIds encloses member notRoot found atOuter).contains contains

end ScopeTree

end StoreLint
