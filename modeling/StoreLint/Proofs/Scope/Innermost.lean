import Mathlib.Data.List.Sort
import StoreLint.Proofs.Scope.Ranges

/-!
# The innermost scope at a position

The scope at a position is found as the last scope that contains it.  This is the
innermost one as long as any two scopes that contain the position lie inside each
other.  Scopes in the head of a `switch`, or in the computed key of a method, a getter
or a setter, are the exception: they are opened before, and outside of, a scope whose
range covers the head or key.

`Crossing` says that two scopes contain a position and neither lies inside the other,
and `crossing_visitList` that this happens at just those positions.
-/

namespace StoreLint

namespace Node

theorem opening?_of_isName {node : Node} (isName : node.isName = true) : node.opening? = none := by
  cases node <;> first | rfl | cases isName

/-- Whether the node opens a scope that contains the position. -/
def OpensAt (position : Nat) (node : Node) : Prop :=
  node.opening?.isSome = true ∧ node.span.contains position = true

/-- The parts of a node that are outside of a scope whose range covers them. -/
def coveredHeads : Node → List Node
  | .methodEntry key _ => [key]
  | node => node.heads

/-- Whether a scope that contains the position is opened in a part of a node that is outside of a
scope whose range covers the part. -/
def CrossedAt (position : Nat) (items : List Node) : Prop :=
  ∃ node ∈ nodesOf .scopes items, ∃ head ∈ node.coveredHeads,
    ∃ opener ∈ nodesOf .scopes [head], opener.OpensAt position

instance (position : Nat) (node : Node) : Decidable (node.OpensAt position) :=
  inferInstanceAs
    (Decidable (node.opening?.isSome = true ∧ node.span.contains position = true))

instance (position : Nat) (items : List Node) : Decidable (CrossedAt position items) :=
  inferInstanceAs (Decidable (∃ node ∈ nodesOf .scopes items, ∃ head ∈ node.coveredHeads,
    ∃ opener ∈ nodesOf .scopes [head], opener.OpensAt position))

theorem crossedAt_append {position : Nat} {first second : List Node} :
    CrossedAt position (first ++ second) ↔
      CrossedAt position first ∨ CrossedAt position second := by
  simp only [CrossedAt, nodesOf_append, List.mem_append, or_and_right, exists_or]

theorem crossedAt_cons {position : Nat} {node : Node} {nodes : List Node} :
    CrossedAt position (node :: nodes) ↔
      CrossedAt position [node] ∨ CrossedAt position nodes :=
  @crossedAt_append position [node] nodes

theorem crossedAt_singleton {position : Nat} {node : Node} :
    CrossedAt position [node] ↔
      (∃ head ∈ node.coveredHeads, ∃ opener ∈ nodesOf .scopes [head], opener.OpensAt position) ∨
        CrossedAt position (node.parts .scopes) := by
  constructor
  · rintro ⟨inner, member, head, isHead, opener⟩
    rcases mem_nodesOf_singleton.mp member with rfl | below
    · exact .inl ⟨head, isHead, opener⟩
    · exact .inr ⟨inner, below, head, isHead, opener⟩
  · rintro (⟨head, isHead, opener⟩ | ⟨inner, below, head, isHead, opener⟩)
    · exact ⟨node, mem_nodesOf_of_mem (by simp), head, isHead, opener⟩
    · exact ⟨inner, mem_nodesOf_singleton.mpr (.inr below), head, isHead, opener⟩

end Node

namespace ScopeTree

/-- Whether the scope with the number contains the position. -/
def ContainsAt (tree : ScopeTree) (index position : Nat) : Prop :=
  ∃ scope, tree.scopes[index]? = some scope ∧ scope.span.contains position = true

/-- Whether one of the scopes that the later tree has in addition contains the position. -/
def NewAt (tree later : ScopeTree) (position : Nat) : Prop :=
  ∃ index, tree.size ≤ index ∧ later.ContainsAt index position

/-- Whether two of the scopes that the later tree has in addition contain the position although
the second does not lie inside the first. -/
def Crossing (tree later : ScopeTree) (position : Nat) : Prop :=
  ∃ first second, tree.size ≤ first ∧ first < second ∧ later.ContainsAt first position ∧
    later.ContainsAt second position ∧ first ∉ later.ancestorIds second

theorem Extends.containsAt_iff {earlier later : ScopeTree} (extends_ : earlier.Extends later)
    {index : Nat} (inside : index < earlier.size) (position : Nat) :
    later.ContainsAt index position ↔ earlier.ContainsAt index position := by
  constructor
  · rintro ⟨grown, found, contains⟩
    obtain ⟨scope, atEarlier, grows⟩ := extends_.grows_of_lt inside found
    exact ⟨scope, atEarlier, grows.span_eq ▸ contains⟩
  · rintro ⟨scope, found, contains⟩
    obtain ⟨grown, atLater, grows⟩ := extends_.grows found
    exact ⟨grown, atLater, grows.span_eq.symm ▸ contains⟩

theorem ContainsAt.lt_size {tree : ScopeTree} {index position : Nat}
    (containsAt : tree.ContainsAt index position) : index < tree.size := by
  obtain ⟨scope, found, _⟩ := containsAt
  exact lt_size_of_getElem? found

theorem not_newAt_of_same_size {tree later : ScopeTree} (same : later.size = tree.size)
    (position : Nat) : ¬tree.NewAt later position := by
  rintro ⟨index, new, containsAt⟩
  have inside := containsAt.lt_size
  omega

theorem not_crossing_of_same_size {tree later : ScopeTree} (same : later.size = tree.size)
    (position : Nat) : ¬tree.Crossing later position := by
  rintro ⟨first, second, new, _, containsAt, _⟩
  exact not_newAt_of_same_size same position ⟨first, new, containsAt⟩

theorem newAt_trans {tree middle later : ScopeTree} (bigger : tree.size ≤ middle.size)
    (rest : middle.Extends later) (position : Nat) :
    tree.NewAt later position ↔ tree.NewAt middle position ∨ middle.NewAt later position := by
  constructor
  · rintro ⟨index, new, containsAt⟩
    by_cases inside : index < middle.size
    · exact .inl ⟨index, new, (rest.containsAt_iff inside position).mp containsAt⟩
    · exact .inr ⟨index, Nat.le_of_not_lt inside, containsAt⟩
  · rintro (⟨index, new, containsAt⟩ | ⟨index, new, containsAt⟩)
    · exact ⟨index, new, (rest.containsAt_iff containsAt.lt_size position).mpr containsAt⟩
    · exact ⟨index, Nat.le_trans bigger new, containsAt⟩

/-- Scopes of two visits, one after the other, never lie inside each other. -/
theorem crossing_trans {tree middle later : ScopeTree} {current : Nat}
    (openAt : tree.OpenAt current) (start : tree.Grown current middle)
    (rest : middle.Grown current later) (position : Nat) :
    tree.Crossing later position ↔
      tree.Crossing middle position ∨ middle.Crossing later position ∨
        (tree.NewAt middle position ∧ middle.NewAt later position) := by
  have bigger := start.extends_.size_le
  have chains : ∀ {index}, index < middle.size →
      later.ancestorIds index = middle.ancestorIds index := fun inside =>
    rest.extends_.ancestorIds_eq start.openAt.wellFormed rest.openAt.wellFormed inside
  constructor
  · rintro ⟨first, second, new, before, atFirst, atSecond, apart⟩
    -- Which of the two visits opened the scopes: the first, the second or one each.
    by_cases secondInside : second < middle.size
    · have firstInside := Nat.lt_trans before secondInside
      refine .inl ⟨first, second, new, before, ?_, ?_, chains secondInside ▸ apart⟩
      · exact (rest.extends_.containsAt_iff firstInside position).mp atFirst
      · exact (rest.extends_.containsAt_iff secondInside position).mp atSecond
    · by_cases firstInside : first < middle.size
      · refine .inr (.inr ⟨⟨first, new, ?_⟩, ⟨second, Nat.le_of_not_lt secondInside, atSecond⟩⟩)
        exact (rest.extends_.containsAt_iff firstInside position).mp atFirst
      · exact .inr (.inl
          ⟨first, second, Nat.le_of_not_lt firstInside, before, atFirst, atSecond, apart⟩)
  · rintro (⟨first, second, new, before, atFirst, atSecond, apart⟩ |
      ⟨first, second, new, before, atFirst, atSecond, apart⟩ |
      ⟨⟨first, newFirst, atFirst⟩, ⟨second, newSecond, atSecond⟩⟩)
    · refine ⟨first, second, new, before, ?_, ?_, (chains atSecond.lt_size).symm ▸ apart⟩
      · exact (rest.extends_.containsAt_iff atFirst.lt_size position).mpr atFirst
      · exact (rest.extends_.containsAt_iff atSecond.lt_size position).mpr atSecond
    · exact ⟨first, second, Nat.le_trans bigger new, before, atFirst, atSecond, apart⟩
    · have inside := atFirst.lt_size
      refine ⟨first, second, newFirst, by omega, ?_, atSecond, ?_⟩
      · exact (rest.extends_.containsAt_iff inside position).mpr atFirst
      · intro member
        rcases rest.mem_ancestorIds_of_new start.openAt newSecond member with lower | above
        · omega
        · have upper := start.openAt.wellFormed.le_of_mem_ancestorIds above
          have lower := openAt.lt_size
          omega

/-- The scope of a node crosses none of the scopes that are opened inside it. -/
theorem crossing_of_opened {tree later : ScopeTree} {current : Nat} {kind : ScopeKind} {node : Node}
    (openAt : tree.OpenAt current)
    (inside : (tree.opened current kind node).Grown tree.size later) (position : Nat) :
    tree.Crossing later position ↔ (tree.opened current kind node).Crossing later position := by
  constructor
  · rintro ⟨first, second, new, before, atFirst, atSecond, apart⟩
    have isNew : tree.size ≠ first := by
      rintro rfl
      exact apart (inside.current_mem_of_new (openAt.opened kind node)
        (by rw [size_opened]; omega) atSecond.lt_size)
    exact ⟨first, second, by rw [size_opened]; omega, before, atFirst, atSecond, apart⟩
  · rintro ⟨first, second, new, before, atFirst, atSecond, apart⟩
    rw [size_opened] at new
    exact ⟨first, second, by omega, before, atFirst, atSecond, apart⟩

theorem newAt_of_opened {tree later : ScopeTree} {current : Nat} {kind : ScopeKind} {node : Node}
    (inside : (tree.opened current kind node).Extends later) (position : Nat) :
    tree.NewAt later position ↔
      node.span.contains position = true ∨
        (tree.opened current kind node).NewAt later position := by
  obtain ⟨scope, found, _, spanEq, _⟩ := getElem?_opened tree current kind node
  have own : (tree.opened current kind node).ContainsAt tree.size position ↔
      node.span.contains position = true := by
    constructor
    · rintro ⟨other, atOther, contains⟩
      have same : other = scope := Option.some.inj (atOther.symm.trans found)
      exact spanEq ▸ same ▸ contains
    · intro contains
      exact ⟨scope, found, spanEq.symm ▸ contains⟩
  have bigger : tree.size ≤ (tree.opened current kind node).size := by simp
  rw [newAt_trans bigger inside, ← own]
  refine or_congr_left ⟨?_, fun containsAt => ⟨tree.size, Nat.le_refl _, containsAt⟩⟩
  rintro ⟨index, new, containsAt⟩
  have upper := containsAt.lt_size
  rw [size_opened] at upper
  have isOwn : index = tree.size := by omega
  exact isOwn ▸ containsAt

/-- List counterpart of `newAt_visit`, from what is known of the nodes of the list. -/
theorem newAt_visitList_of_forall {nodes : List Node} {current position : Nat}
    (each : ∀ node ∈ nodes, ∀ tree : ScopeTree, tree.OpenAt current →
      (tree.NewAt (tree.visit current node) position ↔
        ∃ opener ∈ Node.nodesOf .scopes [node], opener.OpensAt position))
    {tree : ScopeTree} (openAt : tree.OpenAt current) :
    tree.NewAt (tree.visitList current nodes) position ↔
      ∃ opener ∈ Node.nodesOf .scopes nodes, opener.OpensAt position := by
  induction nodes generalizing tree with
  | nil =>
      rw [visitList]
      simp [not_newAt_of_same_size]
  | cons node nodes induction =>
      have grown := grown_visit node openAt
      rw [visitList, newAt_trans grown.extends_.size_le
        (grown_visitList nodes grown.openAt).extends_, each node (by simp) tree openAt,
        induction (fun other member => each other (by simp [member])) grown.openAt,
        Node.nodesOf_cons_eq_append node nodes]
      simp only [List.mem_append, or_and_right, exists_or]

/-- The new scopes that contain a position are those of the nodes that open one there. -/
theorem newAt_visit (node : Node) {tree : ScopeTree} {current : Nat} (openAt : tree.OpenAt current)
    (position : Nat) :
    tree.NewAt (tree.visit current node) position ↔
      ∃ opener ∈ Node.nodesOf .scopes [node], opener.OpensAt position := by
  induction node using Node.inductionOnParts .scopes generalizing tree current with
  | step node induction =>
      simp only [Node.mem_nodesOf_singleton, or_and_right, exists_or, exists_eq_left]
      cases opens : node.opening? with
      | none =>
          have first := openAt.grown_declareList (tree.bindingScope current node)
            node.outerDefinitions
          have parts := newAt_visitList_of_forall
            (fun child member _ openAt => induction child member openAt) first.openAt
          rw [visit_of_not_opening opens, newAt_trans first.extends_.size_le
            (grown_visitList (node.parts .scopes) first.openAt).extends_, parts]
          simp [not_newAt_of_same_size (size_declareList _ _ _), Node.OpensAt, opens]
      | some kind =>
          have headsGrown := grown_visitList node.heads openAt
          have openInside := headsGrown.openAt.opened kind node
          have inside := grown_visitList node.inner openInside
          have heads := newAt_visitList_of_forall
            (fun child member _ openAt =>
              induction child (Node.mem_parts_of_mem_heads member) openAt) openAt
          have inner := newAt_visitList_of_forall
            (fun child member _ openAt =>
              induction child (Node.mem_parts_of_mem_inner member) openAt) openInside
          rw [visit_of_opening opens, newAt_trans headsGrown.extends_.size_le
            inside.of_opened.extends_, newAt_of_opened inside.extends_, heads, inner,
            ← Node.heads_append_inner, Node.nodesOf_append]
          simp only [Node.OpensAt, opens, Option.isSome_some, true_and, List.mem_append,
            or_and_right, exists_or]
          exact or_left_comm

theorem newAt_visitList (nodes : List Node) {tree : ScopeTree} {current : Nat}
    (openAt : tree.OpenAt current) (position : Nat) :
    tree.NewAt (tree.visitList current nodes) position ↔
      ∃ opener ∈ Node.nodesOf .scopes nodes, opener.OpensAt position :=
  newAt_visitList_of_forall (fun node _ _ openAt => newAt_visit node openAt position) openAt

/-- Nodes that lie apart do not cross each other. -/
theorem crossing_visitList_of_forall {nodes : List Node} {current position : Nat}
    (beside : nodes.Pairwise Node.Beside)
    (encloses : ∀ node ∈ Node.nodesOf .scopes nodes, node.Encloses)
    (each : ∀ node ∈ nodes, ∀ tree : ScopeTree, tree.OpenAt current →
      (tree.Crossing (tree.visit current node) position ↔ Node.CrossedAt position [node]))
    {tree : ScopeTree} (openAt : tree.OpenAt current) :
    tree.Crossing (tree.visitList current nodes) position ↔ Node.CrossedAt position nodes := by
  induction nodes generalizing tree with
  | nil =>
      rw [visitList]
      simp [not_crossing_of_same_size, Node.CrossedAt]
  | cons node nodes induction =>
      obtain ⟨besideFirst, besideRest⟩ := List.pairwise_cons.mp beside
      have enclosesFirst : ∀ inner ∈ Node.nodesOf .scopes [node], inner.Encloses :=
        fun inner member => encloses inner (Node.nodesOf_singleton_subset (by simp) member)
      have enclosesRest : ∀ inner ∈ Node.nodesOf .scopes nodes, inner.Encloses := by
        intro inner member
        apply encloses inner
        rw [Node.nodesOf_cons_eq_append]
        exact List.mem_append_right _ member
      have grown := grown_visit node openAt
      have grownRest := grown_visitList nodes grown.openAt
      have notBoth : ¬(tree.NewAt (tree.visit current node) position ∧
          (tree.visit current node).NewAt
            ((tree.visit current node).visitList current nodes) position) := by
        rintro ⟨⟨first, newFirst, scope, found, contains⟩,
          ⟨second, newSecond, other, atOther, also⟩⟩
        obtain ⟨only, isNode, within⟩ :=
          (ranged_visit node enclosesFirst openAt).within newFirst found
        obtain ⟨later, member, withinLater⟩ :=
          (ranged_visitList nodes enclosesRest grown.openAt).within newSecond atOther
        rw [List.mem_singleton.mp isNode] at within
        refine (besideFirst later member).not_both ?_ (within.contains contains)
          (withinLater.contains also)
        -- A name opens no scope.
        intro isName
        obtain ⟨opener, isOpener, opens, _⟩ :=
          (newAt_visit node openAt position).mp ⟨first, newFirst, scope, found, contains⟩
        rw [Node.nodesOf_of_isName isName, List.mem_singleton] at isOpener
        rw [isOpener, Node.opening?_of_isName isName] at opens
        cases opens
      rw [visitList, crossing_trans openAt grown grownRest, each node (by simp) tree openAt,
        induction besideRest enclosesRest (fun other member => each other (by simp [member]))
          grown.openAt, @Node.crossedAt_cons position node nodes]
      simp [notBoth]

/-- The function of a method crosses every scope that its key opens. -/
theorem crossing_visit_method {key function : Node} {tree : ScopeTree} {current position : Nat}
    (encloses : ∀ inner ∈ Node.nodesOf .scopes [key], inner.Encloses)
    (separates : (Node.methodEntry key function).Separates) (openAt : tree.OpenAt current)
    (ofKey : tree.Crossing (tree.visit current key) position ↔ Node.CrossedAt position [key])
    (ofFunction : (tree.visit current key).Crossing
      ((tree.visit current key).visit current function) position ↔
        Node.CrossedAt position [function]) :
    tree.Crossing (tree.visit current (.methodEntry key function)) position ↔
      Node.CrossedAt position [.methodEntry key function] := by
  obtain ⟨isFunction, within⟩ := separates
  have grownKey := grown_visit key openAt
  have grownFunction := grown_visit function grownKey.openAt
  have both : (tree.NewAt (tree.visit current key) position ∧
      (tree.visit current key).NewAt ((tree.visit current key).visit current function) position) ↔
        ∃ opener ∈ Node.nodesOf .scopes [key], opener.OpensAt position := by
    rw [newAt_visit key openAt, newAt_visit function grownKey.openAt]
    refine ⟨And.left, fun opened => ⟨opened, function, Node.mem_nodesOf_of_mem (by simp), ?_⟩⟩
    obtain ⟨opener, member, _, contains⟩ := opened
    have insideKey := (Node.within_of_mem_nodesOf encloses member).contains contains
    refine ⟨?_, within.contains insideKey⟩
    cases function <;> simp [Node.isFunction] at isFunction
    rfl
  have parts : (Node.methodEntry key function).parts .scopes = [key, function] := rfl
  rw [visit, crossing_trans openAt grownKey grownFunction, ofKey, ofFunction, both,
    @Node.crossedAt_singleton position (.methodEntry key function), parts,
    @Node.crossedAt_cons position key [function]]
  simp only [Node.coveredHeads, List.mem_singleton, exists_eq_left]
  rw [← or_assoc, or_comm]

/-- The scope of a node covers, and crosses, every scope that is opened in a head of the node. -/
theorem newAt_heads_and_inner_iff {node : Node} (kind : ScopeKind)
    (encloses : ∀ inner ∈ Node.nodesOf .scopes [node], inner.Encloses)
    {tree : ScopeTree} {current : Nat} (openAt : tree.OpenAt current) (position : Nat) :
    (tree.NewAt (tree.visitList current node.heads) position ∧
        (tree.visitList current node.heads).NewAt
          (((tree.visitList current node.heads).opened current kind node).visitList
            (tree.visitList current node.heads).size node.inner) position) ↔
      ∃ head ∈ node.heads, ∃ opener ∈ Node.nodesOf .scopes [head], opener.OpensAt position := by
  have heads := grown_visitList node.heads openAt
  have inside := grown_visitList node.inner (heads.openAt.opened kind node)
  rw [newAt_visitList node.heads openAt, newAt_of_opened inside.extends_]
  constructor
  · rintro ⟨⟨opener, member, opensAt⟩, _⟩
    obtain ⟨head, isHead, place⟩ := Node.mem_nodesOf_iff.mp member
    exact ⟨head, isHead, opener, Node.mem_nodesOf_singleton.mpr place, opensAt⟩
  · rintro ⟨head, isHead, opener, member, opensAt⟩
    have isChild := Node.mem_parts_of_mem_heads isHead
    have enclosesHead : ∀ inner ∈ Node.nodesOf .scopes [head], inner.Encloses :=
      fun inner isInner => encloses inner (Node.nodesOf_child_subset isChild isInner)
    have insideHead := (Node.within_of_mem_nodesOf enclosesHead member).contains opensAt.2
    have own : node ∈ Node.nodesOf .scopes [node] := Node.mem_nodesOf_of_mem (by simp)
    exact ⟨⟨opener, Node.nodesOf_singleton_subset isHead member, opensAt⟩,
      .inl (((encloses node own).within isChild).contains insideHead)⟩

/-- Scopes cross at a position just if one is opened there in a head that another covers. -/
theorem crossing_visit (node : Node)
    (encloses : ∀ inner ∈ Node.nodesOf .scopes [node], inner.Encloses)
    (separates : ∀ inner ∈ Node.nodesOf .scopes [node], inner.Separates) {tree : ScopeTree}
    {current : Nat} (openAt : tree.OpenAt current) (position : Nat) :
    tree.Crossing (tree.visit current node) position ↔ Node.CrossedAt position [node] := by
  induction node using Node.inductionOnParts .scopes generalizing tree current with
  | step node induction =>
      have own : node ∈ Node.nodesOf .scopes [node] := Node.mem_nodesOf_of_mem (by simp)
      have enclosesParts : ∀ part ∈ node.parts .scopes,
          ∀ inner ∈ Node.nodesOf .scopes [part], inner.Encloses := fun part isPart inner isInner =>
        encloses inner (Node.nodesOf_child_subset isPart isInner)
      have ofChild : ∀ child ∈ node.parts .scopes, ∀ {tree : ScopeTree} {current : Nat},
          tree.OpenAt current → (tree.Crossing (tree.visit current child) position ↔
            Node.CrossedAt position [child]) := by
        intro child member tree current openAt
        refine induction child member (enclosesParts child member) ?_ openAt
        exact fun inner isInner => separates inner (Node.nodesOf_child_subset member isInner)
      by_cases isMethod : ∃ key function, node = .methodEntry key function
      · obtain ⟨key, function, rfl⟩ := isMethod
        exact crossing_visit_method (enclosesParts key (by simp [Node.parts]))
          (separates _ own) openAt (ofChild key (by simp [Node.parts]) openAt)
          (ofChild function (by simp [Node.parts]) (grown_visit key openAt).openAt)
      · have beside : (node.parts .scopes).Pairwise Node.Beside := (separates node own).pairwise
          fun key function isNode => isMethod ⟨key, function, isNode⟩
        have covered : node.coveredHeads = node.heads := by
          cases node <;> first | rfl | exact absurd ⟨_, _, rfl⟩ isMethod
        have ofParts : ∀ parts, parts.Sublist (node.parts .scopes) →
            ∀ {tree : ScopeTree} {current : Nat}, tree.OpenAt current →
              (tree.Crossing (tree.visitList current parts) position ↔
                Node.CrossedAt position parts) := by
          intro parts sublist tree current openAt
          refine crossing_visitList_of_forall (beside.sublist sublist) ?_ ?_ openAt
          · intro inner isInner
            obtain ⟨part, isPart, place⟩ := Node.mem_nodesOf_iff.mp isInner
            exact enclosesParts part (sublist.subset isPart) inner
              (Node.mem_nodesOf_singleton.mpr place)
          · exact fun part isPart _ openAt => ofChild part (sublist.subset isPart) openAt
        rw [Node.crossedAt_singleton, covered]
        cases opens : node.opening? with
        | none =>
            have same := size_declareList tree (tree.bindingScope current node)
              node.outerDefinitions
            have first := openAt.grown_declareList (tree.bindingScope current node)
              node.outerDefinitions
            rw [visit_of_not_opening opens, crossing_trans openAt first
              (grown_visitList (node.parts .scopes) first.openAt),
              ofParts (node.parts .scopes) (List.Sublist.refl _) first.openAt,
              Node.heads_of_not_opening opens]
            simp [not_crossing_of_same_size same, not_newAt_of_same_size same]
        | some kind =>
            have heads := grown_visitList node.heads openAt
            have openInside := heads.openAt.opened kind node
            have inside := grown_visitList node.inner openInside
            have both := newAt_heads_and_inner_iff kind encloses openAt position
            rw [visit_of_opening opens, crossing_trans openAt heads inside.of_opened, both,
              crossing_of_opened heads.openAt inside,
              ofParts node.heads node.heads_sublist_parts openAt,
              ofParts node.inner node.inner_sublist_parts openInside,
              ← Node.heads_append_inner, Node.crossedAt_append, ← or_assoc, or_comm]

theorem crossing_build {span : Span} {items : List Node} (laidOut : LaidOut items)
    (position : Nat) :
    (ofModule span).Crossing (build span items) position ↔ Node.CrossedAt position items := by
  refine crossing_visitList_of_forall laidOut.beside (laidOut.encloses_of_mem .scopes) ?_
    (openAt_ofModule span)
  intro node member tree openAt
  have subset : Node.nodesOf .scopes [node] ⊆ Node.nodesOf .scopes items :=
    Node.nodesOf_singleton_subset member
  exact crossing_visit node
    (fun inner isInner => laidOut.encloses_of_mem .scopes inner (subset isInner))
    (fun inner isInner => laidOut.separates_of_mem .scopes inner (subset isInner)) openAt position

/-- The scopes that contain a position, the module scope apart, in the order of their numbers. -/
def scopesAround (tree : ScopeTree) (position : Nat) : List Scope :=
  tree.scopes.toList.tail.filter fun scope => scope.span.contains position

/-- Whether the scope at a position lies inside all scopes that contain the position. -/
def InnermostAt (tree : ScopeTree) (position : Nat) : Prop :=
  ∀ scope ∈ tree.scopesAround position, scope ∈ tree.ancestors (tree.scopeAt position)

theorem WellFormed.mem_scopesAround_iff {tree : ScopeTree} (wellFormed : tree.WellFormed)
    {scope : Scope} {position : Nat} :
    scope ∈ tree.scopesAround position ↔
      root < scope.id ∧ tree.scopes[scope.id]? = some scope ∧
        scope.span.contains position = true := by
  have inTail : scope ∈ tree.scopes.toList.tail ↔
      root < scope.id ∧ tree.scopes[scope.id]? = some scope := by
    rw [List.mem_iff_getElem?]
    constructor
    · rintro ⟨index, found⟩
      rw [List.getElem?_tail, Array.getElem?_toList] at found
      rw [wellFormed.id_eq found]
      exact ⟨Nat.succ_pos index, found⟩
    · rintro ⟨positive, found⟩
      refine ⟨scope.id - 1, ?_⟩
      have restored : scope.id - 1 + 1 = scope.id := Nat.sub_add_cancel positive
      rw [List.getElem?_tail, Array.getElem?_toList, restored, found]
  rw [scopesAround, List.mem_filter, inTail, and_assoc]

/-- In a tree that is numbered in preorder, the last scope that contains a position is the
innermost one just if the scopes that contain the position do not cross. -/
theorem OpenAt.innermostAt_iff {tree : ScopeTree} {span : Span} (openAt : tree.OpenAt root)
    (position : Nat) :
    tree.InnermostAt position ↔ ¬(ofModule span).Crossing tree position := by
  have wellFormed := openAt.wellFormed
  have inside := wellFormed.scopeAt_lt_size position
  constructor
  · rintro innermost ⟨first, second, new, before, ⟨scope, found, contains⟩,
      ⟨other, atOther, also⟩, crossing⟩
    have idEq := wellFormed.id_eq found
    have isAround : scope ∈ tree.scopesAround position :=
      wellFormed.mem_scopesAround_iff.mpr ⟨idEq ▸ new, idEq ▸ found, contains⟩
    have outer := (wellFormed.mem_ancestors_iff inside found).mp (innermost scope isAround)
    have upper := wellFormed.le_scopeAt atOther also
    exact crossing (openAt.preorder (Nat.le_of_lt before) upper outer)
  · intro noCrossing scope isAround
    obtain ⟨positive, found, contains⟩ := wellFormed.mem_scopesAround_iff.mp isAround
    refine (wellFormed.mem_ancestors_iff inside found).mpr ?_
    rcases Nat.lt_or_eq_of_le (wellFormed.le_scopeAt found contains) with before | same
    · rcases (wellFormed.scopeAt_spec position).2 with isRoot | containsAt
      · exact absurd (isRoot ▸ before) (Nat.not_lt_zero _)
      · by_contra notOuter
        exact noCrossing ⟨scope.id, tree.scopeAt position, positive, before,
          ⟨scope, found, contains⟩, containsAt, notOuter⟩
    · rw [same]
      exact wellFormed.mem_ancestorIds_self inside

theorem WellFormed.pairwise_scopes {tree : ScopeTree} (wellFormed : tree.WellFormed) :
    tree.scopes.toList.Pairwise fun outer inner => outer.id < inner.id := by
  rw [List.pairwise_iff_getElem]
  intro first second firstInside secondInside before
  have atFirst := List.getElem?_eq_getElem firstInside
  have atSecond := List.getElem?_eq_getElem secondInside
  rw [Array.getElem?_toList] at atFirst atSecond
  rw [wellFormed.id_eq atFirst, wellFormed.id_eq atSecond]
  exact before

/-- Where the last scope is the innermost one, its chain is made of the scopes that contain the
position, from the innermost to the outermost, and the module scope. -/
theorem ancestors_scopeAt_eq {span : Span} {items : List Node}
    (encloses : ∀ node ∈ Node.nodesOf .scopes items, node.Encloses) {position : Nat}
    (innermost : (build span items).InnermostAt position) :
    (build span items).ancestors ((build span items).scopeAt position) =
      ((build span items).scopesAround position).reverse ++
        (build span items).scopes.toList.take 1 := by
  have wellFormed := (openAt_build span items).wellFormed
  generalize treeEq : build span items = tree at *
  have inside := wellFormed.scopeAt_lt_size position
  obtain ⟨module_, atRoot⟩ := exists_getElem?_of_lt wellFormed.nonempty
  have takeOne : tree.scopes.toList.take 1 = [module_] := by
    rw [← Array.getElem?_toList] at atRoot
    cases listed : tree.scopes.toList with
    | nil => simp [listed] at atRoot
    | cons first rest => simpa [listed] using atRoot
  have rootId : module_.id = root := wellFormed.id_eq atRoot
  have antisymmetric : Std.Antisymm fun inner outer : Scope => outer.id < inner.id :=
    ⟨fun _ _ left right => absurd (Nat.lt_trans left right) (Nat.lt_irrefl _)⟩
  have irreflexive : Std.Irrefl fun inner outer : Scope => outer.id < inner.id :=
    ⟨fun _ => Nat.lt_irrefl _⟩
  -- Both lists run from larger to smaller numbers and have the same members.
  have chainSorted : (tree.ancestors (tree.scopeAt position)).Pairwise
      fun inner outer => outer.id < inner.id :=
    List.pairwise_map.mp (wellFormed.pairwise_ancestorIds _)
  have aroundSorted : ((tree.scopesAround position).reverse ++ [module_]).Pairwise
      fun inner outer => outer.id < inner.id := by
    refine List.pairwise_append.mpr ⟨?_, List.pairwise_singleton _ _, ?_⟩
    · rw [List.pairwise_reverse]
      exact wellFormed.pairwise_scopes.tail.filter _
    · intro scope member other isModule
      have isAround := wellFormed.mem_scopesAround_iff.mp (List.mem_reverse.mp member)
      rw [List.mem_singleton.mp isModule, rootId]
      exact isAround.1
  rw [takeOne]
  refine chainSorted.eq_of_mem_iff aroundSorted ?_
  intro scope
  rw [List.mem_append, List.mem_reverse, List.mem_singleton]
  constructor
  · intro member
    have found := wellFormed.getElem?_of_mem_ancestors inside member
    by_cases isRoot : scope.id = root
    · rw [isRoot] at found
      exact .inr (Option.some.inj (found.symm.trans atRoot))
    · refine .inl (wellFormed.mem_scopesAround_iff.mpr
        ⟨Nat.pos_of_ne_zero isRoot, found, ?_⟩)
      subst treeEq
      exact contains_of_mem_ancestorIds_scopeAt encloses
        ((wellFormed.mem_ancestors_iff inside found).mp member) isRoot found
  · rintro (isAround | rfl)
    · exact innermost scope isAround
    · exact (wellFormed.mem_ancestors_iff inside atRoot).mpr
        (wellFormed.root_mem_ancestorIds inside)

/-- The scope at a position is the innermost one exactly if no scope that contains the position is
opened in the head of a `switch` or in the computed key of a method, getter or setter.  A name is
then looked up in all scopes that contain the position, the innermost first, and in the module. -/
theorem innermostAt_iff_not_crossedAt {span : Span} {items : List Node}
    (laidOut : LaidOut items) (position : Nat) :
    ((build span items).InnermostAt position ↔ ¬Node.CrossedAt position items) ∧
      (¬Node.CrossedAt position items → ∀ name,
        (build span items).findVariable ((build span items).scopeAt position) name =
          (((build span items).scopesAround position).reverse ++
            (build span items).scopes.toList.take 1).findSome? fun scope => scope.find? name) := by
  have exact_ : (build span items).InnermostAt position ↔ ¬Node.CrossedAt position items :=
    ((openAt_build span items).innermostAt_iff position).trans
      (not_congr (crossing_build laidOut position))
  refine ⟨exact_, ?_⟩
  intro notCrossed name
  rw [findVariable, ancestors_scopeAt_eq (laidOut.encloses_of_mem .scopes) (exact_.mpr notCrossed)]

/-- `switch (() => x) {}` with its first character at position 1. -/
def switchOverArrow : List Node :=
  [.switch ⟨1, 20⟩
    (.functionLike ⟨9, 16⟩ .concise none [] [.identifier ⟨"x", ⟨15, 16⟩⟩] []) []]

theorem laidOut_switchOverArrow : LaidOut switchOverArrow := by
  constructor
  · simp [switchOverArrow, Node.nodesOf, Node.walkList, Node.walk, Node.entering, Node.Encloses,
      Node.parts, Extent.aside, Node.span, Span.Within]
  · simp [switchOverArrow, Node.nodesOf, Node.walkList, Node.walk, Node.entering, Node.Separates,
      Node.parts, Extent.aside]
  · simp [switchOverArrow]

theorem not_innermostAt_switchOverArrow :
    LaidOut switchOverArrow ∧ ¬(build ⟨1, 20⟩ switchOverArrow).InnermostAt 15 ∧
      (build ⟨1, 20⟩ switchOverArrow).InnermostAt 17 := by
  have laidOut := laidOut_switchOverArrow
  refine ⟨laidOut, ?_, ?_⟩
  · rw [(innermostAt_iff_not_crossedAt laidOut 15).1]
    simp [switchOverArrow, Node.CrossedAt, Node.nodesOf, Node.walkList, Node.walk, Node.entering,
      Node.coveredHeads, Node.heads, Node.OpensAt, Node.opening?, Node.span, Span.contains]
  · rw [(innermostAt_iff_not_crossedAt laidOut 17).1]
    simp [switchOverArrow, Node.CrossedAt, Node.nodesOf, Node.walkList, Node.walk, Node.entering,
      Node.coveredHeads, Node.heads, Node.OpensAt, Node.opening?, Node.span, Span.contains]

end ScopeTree

end StoreLint
