import StoreLint.Proofs.Scope.Arena
import StoreLint.Proofs.Scope.Opening

/-!
# How visiting a node makes the scope tree grow

While a node is visited in the scope `current`, new scopes are opened inside
`current` only, and they are numbered in preorder: the scopes inside a scope are the
ones that directly follow it.  Declarations are added to one scope, behind those that it has
(`Gains`).  `Grown` collects what a visit guarantees about the
shape of the tree, and `grown_visit` proves it of every node by induction over the
parts of the node.
-/

namespace StoreLint

namespace ScopeTree

/-- The state in which a node can be visited in the scope `current`: scopes are numbered in
preorder, and `current` is one of the scopes that are still open, which are those around the scope
that was opened last. -/
structure OpenAt (tree : ScopeTree) (current : Nat) : Prop where
  wellFormed : tree.WellFormed
  preorder : ∀ {outer between last : Nat}, outer ≤ between → between ≤ last →
    outer ∈ tree.ancestorIds last → outer ∈ tree.ancestorIds between
  current_mem : current ∈ tree.ancestorIds (tree.size - 1)

theorem OpenAt.lt_size {tree : ScopeTree} {current : Nat} (openAt : tree.OpenAt current) :
    current < tree.size := by
  have upper := openAt.wellFormed.le_of_mem_ancestorIds openAt.current_mem
  have nonempty := openAt.wellFormed.nonempty
  omega

theorem openAt_ofModule (span : Span) : (ofModule span).OpenAt root where
  wellFormed := wellFormed_ofModule span
  preorder := by
    intro outer between last lower upper member
    have inside := lt_size_of_mem_ancestorIds member
    have last_eq : last = between := by
      have size_eq : (ofModule span).size = 1 := rfl
      omega
    exact last_eq ▸ member
  current_mem := (wellFormed_ofModule span).mem_ancestorIds_self (wellFormed_ofModule span).nonempty

/-- A scope around an open scope is open. -/
theorem OpenAt.outer {tree : ScopeTree} {current outer : Nat} (openAt : tree.OpenAt current)
    (member : outer ∈ tree.ancestorIds current) : tree.OpenAt outer where
  wellFormed := openAt.wellFormed
  preorder := openAt.preorder
  current_mem := openAt.wellFormed.mem_ancestorIds_trans openAt.current_mem member

/-- Declarations do not change which scopes are open. -/
theorem OpenAt.of_extends {tree later : ScopeTree} {current : Nat}
    (openAt : tree.OpenAt current) (extends_ : tree.Extends later)
    (same : later.size = tree.size) : later.OpenAt current := by
  have wellFormed := openAt.wellFormed.of_extends extends_ same
  have chains : ∀ index, later.ancestorIds index = tree.ancestorIds index := by
    intro index
    by_cases inside : index < tree.size
    · exact extends_.ancestorIds_eq openAt.wellFormed wellFormed inside
    · rw [ancestorIds_eq_nil (Nat.le_of_not_lt inside),
        ancestorIds_eq_nil (same ▸ Nat.le_of_not_lt inside)]
  refine ⟨wellFormed, ?_, ?_⟩
  · intro outer between last lower upper member
    rw [chains] at member ⊢
    exact openAt.preorder lower upper member
  · rw [chains, same]
    exact openAt.current_mem

/-- A scope that is opened inside an open scope is open, and is numbered in preorder. -/
theorem OpenAt.createScope {tree : ScopeTree} {current : Nat} (openAt : tree.OpenAt current)
    (kind : ScopeKind) (span : Span) :
    (tree.createScope kind current span).OpenAt tree.size := by
  have extends_ := extends_createScope tree kind current span
  have wellFormed := openAt.wellFormed.createScope kind span openAt.lt_size
  have fresh : (tree.createScope kind current span).scopes[tree.size]? =
      some { id := tree.size, kind, span, parent := some current, declared := [] } := by
    rw [getElem?_createScope, if_pos rfl]
  have older : ∀ {index}, index < tree.size →
      (tree.createScope kind current span).ancestorIds index = tree.ancestorIds index :=
    fun inside => extends_.ancestorIds_eq openAt.wellFormed wellFormed inside
  refine ⟨wellFormed, ?_, ?_⟩
  · intro outer between last lower upper member
    have inside := lt_size_of_mem_ancestorIds member
    rw [size_createScope] at inside
    by_cases isLast : last < tree.size
    · rw [older isLast] at member
      rw [older (Nat.lt_of_le_of_lt upper isLast)]
      exact openAt.preorder lower upper member
    · have lastEq : last = tree.size := by omega
      subst lastEq
      by_cases isBetween : between = tree.size
      · exact isBetween ▸ member
      · rcases (wellFormed.mem_ancestorIds_iff fresh).mp member with rfl | ⟨parent, parentEq, above⟩
        · omega
        · -- A scope around the new one is around `current`, hence around the scope before it.
          have parentIs : parent = current := (Option.some.inj parentEq).symm
          rw [parentIs, older openAt.lt_size] at above
          have aroundLast := openAt.wellFormed.mem_ancestorIds_trans openAt.current_mem above
          rw [older (by omega)]
          exact openAt.preorder lower (by omega) aroundLast
  · have inside : tree.size < (tree.createScope kind current span).size := by simp
    simpa using wellFormed.mem_ancestorIds_self inside

/-- What a visit in the scope `current` makes of a tree. -/
structure Grown (tree : ScopeTree) (current : Nat) (later : ScopeTree) : Prop where
  extends_ : tree.Extends later
  openAt : later.OpenAt current
  parent_of_new : ∀ {index : Nat} {scope : Scope}, tree.size ≤ index →
    later.scopes[index]? = some scope →
      ∃ parent, scope.parent = some parent ∧ (parent = current ∨ tree.size ≤ parent)

theorem Grown.of_same_size {tree later : ScopeTree} {current : Nat}
    (openAt : tree.OpenAt current) (extends_ : tree.Extends later)
    (same : later.size = tree.size) : tree.Grown current later where
  extends_ := extends_
  openAt := openAt.of_extends extends_ same
  parent_of_new := by
    intro index scope new found
    have inside := lt_size_of_getElem? found
    omega

theorem Grown.refl {tree : ScopeTree} {current : Nat} (openAt : tree.OpenAt current) :
    tree.Grown current tree :=
  .of_same_size openAt (.refl tree) rfl

theorem Grown.trans {tree middle later : ScopeTree} {current : Nat}
    (first : tree.Grown current middle) (second : middle.Grown current later) :
    tree.Grown current later where
  extends_ := first.extends_.trans second.extends_
  openAt := second.openAt
  parent_of_new := by
    intro index scope new found
    by_cases inside : index < middle.size
    · obtain ⟨old, atOld, grows⟩ := second.extends_.grows_of_lt inside found
      obtain ⟨parent, parentEq, place⟩ := first.parent_of_new new atOld
      exact ⟨parent, grows.parent_eq.trans parentEq, place⟩
    · obtain ⟨parent, parentEq, place⟩ :=
        second.parent_of_new (Nat.le_of_not_lt inside) found
      have bigger := first.extends_.size_le
      exact ⟨parent, parentEq, place.imp_right fun lower => by omega⟩

theorem extends_declareList (tree : ScopeTree) (scope : Nat) (definitions : List Definition) :
    tree.Extends (tree.declareList scope definitions) ∧
      (tree.declareList scope definitions).size = tree.size := by
  induction definitions generalizing tree with
  | nil => exact ⟨.refl tree, rfl⟩
  | cons definition definitions induction =>
      obtain ⟨rest, same⟩ := induction (tree.declare scope definition.name definition)
      refine ⟨(extends_declare tree scope definition.name definition).trans rest, ?_⟩
      exact same.trans (size_declare tree scope definition.name definition)

theorem size_declareList (tree : ScopeTree) (scope : Nat) (definitions : List Definition) :
    (tree.declareList scope definitions).size = tree.size :=
  (extends_declareList tree scope definitions).2

theorem OpenAt.grown_declareList {tree : ScopeTree} {current : Nat} (openAt : tree.OpenAt current)
    (scope : Nat) (definitions : List Definition) :
    tree.Grown current (tree.declareList scope definitions) :=
  .of_same_size openAt (extends_declareList tree scope definitions).1
    (size_declareList tree scope definitions)

/-- The later tree has the given declarations in one scope, behind those that were there, and is
else the same. -/
structure Gains (tree : ScopeTree) (scope : Nat) (definitions : List Definition)
    (later : ScopeTree) : Prop where
  size_eq : later.size = tree.size
  others : ∀ {index : Nat}, index ≠ scope → later.scopes[index]? = tree.scopes[index]?
  gained : ∀ {found : Scope}, tree.scopes[scope]? = some found →
    ∃ grown, later.scopes[scope]? = some grown ∧ found.Grows grown ∧
      ∀ name, grown.definitionsOf name =
        found.definitionsOf name ++ definitions.filter fun definition => definition.name = name

namespace Gains

variable {scope : Nat}

theorem nil (tree : ScopeTree) : tree.Gains scope [] tree where
  size_eq := rfl
  others := fun _ => rfl
  gained := fun {found} atScope => ⟨found, atScope, .refl found, by simp⟩

theorem trans {tree middle later : ScopeTree} {first second : List Definition}
    (before : tree.Gains scope first middle) (behind : middle.Gains scope second later) :
    tree.Gains scope (first ++ second) later where
  size_eq := behind.size_eq.trans before.size_eq
  others := fun different => (behind.others different).trans (before.others different)
  gained := by
    intro found atScope
    obtain ⟨between, atMiddle, grows, gained⟩ := before.gained atScope
    obtain ⟨grown, atLater, growsAgain, gainedAgain⟩ := behind.gained atMiddle
    refine ⟨grown, atLater, grows.trans growsAgain, ?_⟩
    intro name
    rw [gainedAgain, gained, List.append_assoc, List.filter_append]

theorem declare (tree : ScopeTree) (definition : Definition) :
    tree.Gains scope [definition] (tree.declare scope definition.name definition) where
  size_eq := size_declare tree scope definition.name definition
  others := getElem?_declare_of_ne tree definition.name definition
  gained := by
    intro found atScope
    obtain ⟨grown, atLater, grows, _⟩ := getElem?_declare_self atScope definition.name definition
    refine ⟨grown, atLater, grows, ?_⟩
    intro name
    have grown_eq : grown = { found with
        declared := Variable.declareIn definition.name definition found.declared } := by
      simpa [ScopeTree.declare, Array.getElem?_modify, atScope] using atLater.symm
    have added := Variable.find?_declareIn definition.name name definition found.declared
    rw [grown_eq, Scope.definitionsOf, Scope.find?, added, Scope.definitionsOf, Scope.find?]
    by_cases same : name = definition.name
    · simp [same]
    · simp [same, Ne.symm same]

theorem declareList (tree : ScopeTree) (definitions : List Definition) :
    tree.Gains scope definitions (tree.declareList scope definitions) := by
  induction definitions generalizing tree with
  | nil => exact .nil tree
  | cons definition definitions induction =>
      exact (Gains.declare tree definition).trans (induction _)

end Gains

@[simp] theorem size_opened (tree : ScopeTree) (current : Nat) (kind : ScopeKind) (node : Node) :
    (tree.opened current kind node).size = tree.size + 1 := by
  simp [opened, size_declareList]

theorem OpenAt.opened {tree : ScopeTree} {current : Nat} (openAt : tree.OpenAt current)
    (kind : ScopeKind) (node : Node) : (tree.opened current kind node).OpenAt tree.size :=
  (openAt.createScope kind node.span).of_extends (extends_declareList _ _ _).1
    (size_declareList _ _ _)

/-- The scope that a node has opened. -/
theorem getElem?_opened (tree : ScopeTree) (current : Nat) (kind : ScopeKind) (node : Node) :
    ∃ scope, (tree.opened current kind node).scopes[tree.size]? = some scope ∧
      scope.kind = kind ∧ scope.span = node.span ∧ scope.parent = some current := by
  have fresh : (tree.createScope kind current node.span).scopes[tree.size]? =
      some
        { id := tree.size, kind, span := node.span, parent := some current, declared := [] } := by
    rw [getElem?_createScope, if_pos rfl]
  obtain ⟨scope, found, grows⟩ :=
    (extends_declareList (tree.createScope kind current node.span) tree.size
      node.ownDefinitions).1.grows fresh
  exact ⟨scope, found, grows.kind_eq, grows.span_eq, grows.parent_eq⟩

theorem extends_opened (tree : ScopeTree) (current : Nat) (kind : ScopeKind) (node : Node) :
    tree.Extends (tree.opened current kind node) :=
  (extends_createScope tree kind current node.span).trans (extends_declareList _ _ _).1

/-- What is visited inside a scope that has been opened inside `current` grows inside
`current`. -/
theorem Grown.of_opened {tree later : ScopeTree} {current : Nat} {kind : ScopeKind} {node : Node}
    (inside : (tree.opened current kind node).Grown tree.size later) :
    tree.Grown current later := by
  obtain ⟨scope, found, _, _, parentEq⟩ := getElem?_opened tree current kind node
  obtain ⟨grown, atLater, grows⟩ := inside.extends_.grows found
  have parentLater : grown.parent = some current := grows.parent_eq.trans parentEq
  have smaller := inside.openAt.wellFormed.parent_lt atLater parentLater
  have around : current ∈ later.ancestorIds tree.size := by
    refine (inside.openAt.wellFormed.mem_ancestorIds_iff atLater).mpr
      (.inr ⟨current, parentLater, ?_⟩)
    have bigger := inside.extends_.size_le
    rw [size_opened] at bigger
    exact inside.openAt.wellFormed.mem_ancestorIds_self (by omega)
  refine ⟨(extends_opened tree current kind node).trans inside.extends_,
    inside.openAt.outer around, ?_⟩
  intro index other new atIndex
  by_cases isFresh : index = tree.size
  · subst isFresh
    have same : other = grown := Option.some.inj (atIndex.symm.trans atLater)
    exact ⟨current, same ▸ parentLater, .inl rfl⟩
  · obtain ⟨parent, parentIs, place⟩ :=
      inside.parent_of_new (by rw [size_opened]; omega) atIndex
    refine ⟨parent, parentIs, .inr ?_⟩
    rcases place with rfl | lower
    · exact Nat.le_refl _
    · rw [size_opened] at lower
      omega

/-- List counterpart of `grown_visit`, from what is known of the nodes of the list. -/
theorem grown_visitList_of_forall {nodes : List Node} {current : Nat}
    (each : ∀ node ∈ nodes, ∀ tree : ScopeTree, tree.OpenAt current →
      tree.Grown current (tree.visit current node))
    {tree : ScopeTree} (openAt : tree.OpenAt current) :
    tree.Grown current (tree.visitList current nodes) := by
  induction nodes generalizing tree with
  | nil => exact visitList.eq_1 tree current ▸ .refl openAt
  | cons node nodes induction =>
      rw [visitList]
      have first := each node (by simp) tree openAt
      exact first.trans (induction (fun other member => each other (by simp [member])) first.openAt)

theorem grown_visit (node : Node) {tree : ScopeTree} {current : Nat}
    (openAt : tree.OpenAt current) : tree.Grown current (tree.visit current node) := by
  induction node using Node.inductionOnParts .scopes generalizing tree current with
  | step node induction =>
      cases opens : node.opening? with
      | none =>
          rw [visit_of_not_opening opens]
          have first := openAt.grown_declareList (tree.bindingScope current node)
            node.outerDefinitions
          refine first.trans (grown_visitList_of_forall ?_ first.openAt)
          exact fun child member _ openAt => induction child member openAt
      | some kind =>
          rw [visit_of_opening opens]
          have heads : tree.Grown current (tree.visitList current node.heads) := by
            refine grown_visitList_of_forall ?_ openAt
            exact fun child member _ openAt =>
              induction child (Node.mem_parts_of_mem_heads member) openAt
          have inside := grown_visitList_of_forall
            (fun child member _ openAt =>
              induction child (Node.mem_parts_of_mem_inner member) openAt)
            (heads.openAt.opened kind node)
          exact heads.trans inside.of_opened

theorem grown_visitList (nodes : List Node) {tree : ScopeTree} {current : Nat}
    (openAt : tree.OpenAt current) : tree.Grown current (tree.visitList current nodes) :=
  grown_visitList_of_forall (fun node _ _ openAt => grown_visit node openAt) openAt

/-- The scopes of a module are numbered in preorder. -/
theorem openAt_build (span : Span) (items : List Node) : (build span items).OpenAt root :=
  (grown_visitList items (openAt_ofModule span)).openAt

/-- The scopes around a new scope are new ones, and then `current` and the scopes around it. -/
theorem Grown.mem_ancestorIds_of_new {tree later : ScopeTree} {current index outer : Nat}
    (grown : tree.Grown current later) (openAt : tree.OpenAt current) (new : tree.size ≤ index)
    (member : outer ∈ later.ancestorIds index) :
    tree.size ≤ outer ∨ outer ∈ tree.ancestorIds current := by
  have inside := lt_size_of_mem_ancestorIds member
  revert new member
  refine grown.openAt.wellFormed.chainInduction
    (motive := fun index => tree.size ≤ index → outer ∈ later.ancestorIds index →
      tree.size ≤ outer ∨ outer ∈ tree.ancestorIds current) ?_ index inside
  intro index scope found induction new member
  obtain ⟨parent, parentEq, place⟩ := grown.parent_of_new new found
  rcases (grown.openAt.wellFormed.mem_ancestorIds_iff found).mp member with
    rfl | ⟨other, otherEq, above⟩
  · exact .inl new
  · have same : parent = other := Option.some.inj (parentEq.symm.trans otherEq)
    subst same
    rcases place with rfl | lower
    · rw [grown.extends_.ancestorIds_eq openAt.wellFormed grown.openAt.wellFormed
        openAt.lt_size] at above
      exact .inr above
    · exact induction parent parentEq lower above

/-- Every new scope is inside `current`. -/
theorem Grown.current_mem_of_new {tree later : ScopeTree} {current index : Nat}
    (grown : tree.Grown current later) (openAt : tree.OpenAt current) (new : tree.size ≤ index)
    (inside : index < later.size) : current ∈ later.ancestorIds index := by
  revert new
  refine grown.openAt.wellFormed.chainInduction
    (motive := fun index => tree.size ≤ index → current ∈ later.ancestorIds index) ?_ index inside
  intro index scope found induction new
  obtain ⟨parent, parentEq, place⟩ := grown.parent_of_new new found
  refine (grown.openAt.wellFormed.mem_ancestorIds_iff found).mpr (.inr ⟨parent, parentEq, ?_⟩)
  rcases place with rfl | lower
  · exact grown.openAt.wellFormed.mem_ancestorIds_self
      (Nat.lt_of_lt_of_le openAt.lt_size grown.extends_.size_le)
  · exact induction parent parentEq lower

end ScopeTree

end StoreLint
