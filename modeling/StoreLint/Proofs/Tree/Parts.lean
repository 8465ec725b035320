import StoreLint.Tree.Walk

/-!
# Induction over the parts of a node

The constructors of nodes are many, but most arguments only need that a node is
made of its parts.  `Node.inductionOnParts` is the corresponding induction
principle, and the equations below read walks off the list of parts, so that later
proofs need not name a constructor they do not care about.
-/

namespace StoreLint

@[simp] theorem Extent.aside_nil {α : Type} (extent : Extent) :
    extent.aside ([] : List α) = [] := by
  cases extent <;> rfl

theorem Extent.mem_of_mem_aside {α : Type} {extent : Extent} {items : List α} {item : α}
    (member : item ∈ extent.aside items) : item ∈ items := by
  cases extent with
  | whole => exact member
  | scopes => cases member

namespace Node

theorem sizeOf_lt_of_mem_parts {extent : Extent} {node child : Node}
    (member : child ∈ node.parts extent) : sizeOf child < sizeOf node := by
  have fromList : ∀ parts : List Node, child ∈ parts →
      sizeOf child < sizeOf parts :=
    fun _ inParts => List.sizeOf_lt_of_mem inParts
  have fromOption : ∀ part : Option Node, part = some child →
      sizeOf child < sizeOf part := by
    rintro _ rfl
    simp
  have fromAside : ∀ parts : List Node, child ∈ extent.aside parts → child ∈ parts :=
    fun _ => Extent.mem_of_mem_aside
  cases node <;>
    simp only [parts, List.mem_append, List.mem_cons, List.not_mem_nil,
      or_false, Option.mem_toList] at member
  all_goals grind

/-- What holds of a node whenever it holds of all its parts holds of every
node. -/
theorem inductionOnParts (extent : Extent) {motive : Node → Prop}
    (step : ∀ node, (∀ child ∈ node.parts extent, motive child) → motive node)
    (node : Node) : motive node :=
  step node fun child member =>
    have _smaller := sizeOf_lt_of_mem_parts member
    inductionOnParts extent step child
termination_by sizeOf node

/-- What scopes are made of is part of the whole. -/
theorem parts_sublist_whole (extent : Extent) (node : Node) :
    (node.parts extent).Sublist (node.parts .whole) := by
  cases extent with
  | whole => exact List.Sublist.refl _
  | scopes => cases node <;> simp [parts, Extent.aside]

variable {extent : Extent}

theorem walkList_append (enter : Node → Bool) (left right : List Node) :
    walkList extent enter (left ++ right) =
      walkList extent enter left ++ walkList extent enter right := by
  induction left with
  | nil => simp [walkList]
  | cons node nodes induction => simp [walkList, induction]

theorem mem_walkList_iff {enter : Node → Bool} {nodes : List Node} {node : Node} :
    node ∈ walkList extent enter nodes ↔ ∃ part ∈ nodes, node ∈ part.walk extent enter := by
  induction nodes with
  | nil => simp [walkList]
  | cons part parts induction => simp [walkList, induction]

theorem walkOption_eq (enter : Node → Bool) (part : Option Node) :
    walkOption extent enter part = walkList extent enter part.toList := by
  cases part <;> simp [walkOption, walkList]

theorem walkList_aside (enter : Node → Bool) (items : List Node) :
    walkList extent enter (extent.aside items) = extent.aside (walkList extent enter items) := by
  cases extent <;> simp [Extent.aside, walkList]

/-- A walk enters a node and then its parts. -/
theorem walk_eq (enter : Node → Bool) (node : Node) :
    node.walk extent enter = entering enter node (walkList extent enter (node.parts extent)) := by
  cases node <;>
    simp [walk, parts, walkList_append, walkList_aside, walkOption_eq, walkList]

theorem mem_walk_iff {enter : Node → Bool} {top node : Node} :
    node ∈ top.walk extent enter ↔
      enter top = true ∧ (node = top ∨ node ∈ walkList extent enter (top.parts extent)) := by
  rw [walk_eq, entering]
  split
  next entered => simp [entered]
  next notEntered => simp [notEntered]

theorem nodesOf_append (left right : List Node) :
    nodesOf extent (left ++ right) = nodesOf extent left ++ nodesOf extent right :=
  walkList_append _ left right

theorem nodesOf_cons (node : Node) (nodes : List Node) :
    nodesOf extent (node :: nodes) =
      node :: (nodesOf extent (node.parts extent) ++ nodesOf extent nodes) := by
  simp [nodesOf, walkList, walk_eq, entering]

@[simp] theorem nodesOf_nil : nodesOf extent [] = [] := by
  simp [nodesOf, walkList]

theorem mem_nodesOf_iff {items : List Node} {node : Node} :
    node ∈ nodesOf extent items ↔
      ∃ item ∈ items, node = item ∨ node ∈ nodesOf extent (item.parts extent) := by
  induction items with
  | nil => simp
  | cons item items induction =>
      simp only [nodesOf_cons, List.mem_cons, List.mem_append, induction,
        exists_eq_or_imp, or_assoc]

theorem mem_nodesOf_singleton {node inner : Node} :
    inner ∈ nodesOf extent [node] ↔ inner = node ∨ inner ∈ nodesOf extent (node.parts extent) := by
  simp [nodesOf_cons]

theorem nodesOf_cons_eq_append (node : Node) (nodes : List Node) :
    nodesOf extent (node :: nodes) = nodesOf extent [node] ++ nodesOf extent nodes := by
  simp [nodesOf_cons]

theorem nodesOf_singleton_subset {items : List Node} {item : Node}
    (member : item ∈ items) : nodesOf extent [item] ⊆ nodesOf extent items := by
  intro inner innerMember
  exact mem_nodesOf_iff.mpr ⟨item, member, mem_nodesOf_singleton.mp innerMember⟩

theorem nodesOf_child_subset {node child : Node} (member : child ∈ node.parts extent) :
    nodesOf extent [child] ⊆ nodesOf extent [node] := by
  intro inner innerMember
  exact mem_nodesOf_singleton.mpr (.inr (nodesOf_singleton_subset member innerMember))

theorem nodesOf_untyped_subset (pattern : Node) :
    nodesOf extent [pattern.untyped] ⊆ nodesOf extent [pattern] := by
  fun_induction untyped pattern with
  | case1 span target type induction =>
      exact List.Subset.trans induction (nodesOf_child_subset (by simp [parts]))
  | case2 => exact List.Subset.refl _

theorem mem_nodesOf_of_mem {items : List Node} {item : Node}
    (member : item ∈ items) : item ∈ nodesOf extent items :=
  mem_nodesOf_iff.mpr ⟨item, member, .inl rfl⟩

theorem mem_nodesOf_of_mem_parts {node child : Node} (isChild : child ∈ node.parts extent) :
    child ∈ nodesOf extent [node] :=
  nodesOf_child_subset isChild (mem_nodesOf_of_mem (by simp))

theorem nodesOf_subset_of_mem {items : List Node} {node : Node}
    (member : node ∈ nodesOf extent items) : nodesOf extent [node] ⊆ nodesOf extent items := by
  have below : ∀ top : Node, node ∈ nodesOf extent [top] →
      nodesOf extent [node] ⊆ nodesOf extent [top] := by
    intro top
    induction top using inductionOnParts extent with
    | step top induction =>
        intro inTop
        rcases mem_nodesOf_singleton.mp inTop with rfl | inParts
        · exact List.Subset.refl _
        · obtain ⟨child, isChild, place⟩ := mem_nodesOf_iff.mp inParts
          have inChild := induction child isChild (mem_nodesOf_singleton.mpr place)
          exact List.Subset.trans inChild (nodesOf_child_subset isChild)
  obtain ⟨item, isItem, place⟩ := mem_nodesOf_iff.mp member
  exact List.Subset.trans (below item (mem_nodesOf_singleton.mpr place))
    (nodesOf_singleton_subset isItem)

theorem nodesOf_subset_whole (items : List Node) : nodesOf extent items ⊆ nodesOf .whole items := by
  have below : ∀ top : Node, nodesOf extent [top] ⊆ nodesOf .whole [top] := by
    intro top
    induction top using inductionOnParts extent with
    | step top induction =>
        intro node inTop
        rcases mem_nodesOf_singleton.mp inTop with rfl | inParts
        · exact mem_nodesOf_of_mem (by simp)
        · obtain ⟨child, isChild, place⟩ := mem_nodesOf_iff.mp inParts
          have inChild := induction child isChild (mem_nodesOf_singleton.mpr place)
          exact nodesOf_child_subset ((parts_sublist_whole extent top).subset isChild) inChild
  intro node inItems
  obtain ⟨item, isItem, place⟩ := mem_nodesOf_iff.mp inItems
  exact nodesOf_singleton_subset isItem (below item (mem_nodesOf_singleton.mpr place))

/-- A walk lists nodes that it enters. -/
theorem enter_of_mem_walkList {enter : Node → Bool} {nodes : List Node} {node : Node}
    (member : node ∈ walkList extent enter nodes) : enter node = true := by
  have below : ∀ top : Node, node ∈ top.walk extent enter → enter node = true := by
    intro top
    induction top using inductionOnParts extent with
    | step top induction =>
        intro inTop
        obtain ⟨entered, rfl | inParts⟩ := mem_walk_iff.mp inTop
        · exact entered
        · obtain ⟨child, isChild, inChild⟩ := mem_walkList_iff.mp inParts
          exact induction child isChild inChild
  obtain ⟨top, _, inTop⟩ := mem_walkList_iff.mp member
  exact below top inTop

/-- A walk goes on to the parts of a node that it enters. -/
theorem mem_walkList_of_mem_parts {enter : Node → Bool} {nodes : List Node} {node child : Node}
    (member : node ∈ walkList extent enter nodes) (isChild : child ∈ node.parts extent)
    (entered : enter child = true) : child ∈ walkList extent enter nodes := by
  have below : ∀ top : Node, node ∈ top.walk extent enter → child ∈ top.walk extent enter := by
    intro top
    induction top using inductionOnParts extent with
    | step top induction =>
        intro inTop
        obtain ⟨enteredTop, isTop | inParts⟩ := mem_walk_iff.mp inTop
        · have childEntered : child ∈ child.walk extent enter :=
            mem_walk_iff.mpr ⟨entered, .inl rfl⟩
          have isPart : child ∈ top.parts extent := isTop ▸ isChild
          have inParts := mem_walkList_iff.mpr ⟨child, isPart, childEntered⟩
          exact mem_walk_iff.mpr ⟨enteredTop, .inr inParts⟩
        · obtain ⟨part, isPart, inPart⟩ := mem_walkList_iff.mp inParts
          have further := induction part isPart inPart
          exact mem_walk_iff.mpr ⟨enteredTop, .inr (mem_walkList_iff.mpr ⟨part, isPart, further⟩)⟩
  obtain ⟨top, isTop, inTop⟩ := mem_walkList_iff.mp member
  exact mem_walkList_iff.mpr ⟨top, isTop, below top inTop⟩

theorem walk_subset_nodesOf (enter : Node → Bool) (top : Node) :
    top.walk extent enter ⊆ nodesOf extent [top] := by
  induction top using inductionOnParts extent with
  | step top induction =>
      intro node inTop
      obtain ⟨_, rfl | inParts⟩ := mem_walk_iff.mp inTop
      · exact mem_nodesOf_of_mem (by simp)
      · obtain ⟨child, isChild, inChild⟩ := mem_walkList_iff.mp inParts
        exact nodesOf_child_subset isChild (induction child isChild inChild)

end Node

end StoreLint
