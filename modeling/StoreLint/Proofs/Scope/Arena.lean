import Mathlib.Data.List.Infix
import Mathlib.Data.List.Nodup
import StoreLint.Scope.Tree

/-!
# The scopes of a tree and their parents

A tree is well formed when the number of every scope is its index and the scope
around it has a smaller number.  In such a tree the bound of the walk to the module
scope is never reached, and the chain of a scope is the scope followed by the chain
of its parent (`ancestors_eq`).

A tree only ever grows: later trees have all scopes of earlier ones, which keep
their kind, range and parent and only gain declarations (`Extends`).
-/

namespace StoreLint

/-- The declarations of a name in a scope, in the order in which they were met. -/
def Scope.definitionsOf (scope : Scope) (name : String) : List Definition :=
  ((scope.find? name).map Variable.definitions).getD []

/-- What a scope looks like later: it may have got more declarations. -/
structure Scope.Grows (earlier later : Scope) : Prop where
  id_eq : later.id = earlier.id
  kind_eq : later.kind = earlier.kind
  span_eq : later.span = earlier.span
  parent_eq : later.parent = earlier.parent
  definitions : ∀ name, earlier.definitionsOf name <+: later.definitionsOf name

theorem Scope.Grows.refl (scope : Scope) : scope.Grows scope :=
  ⟨rfl, rfl, rfl, rfl, fun _ => List.prefix_refl _⟩

theorem Scope.Grows.trans {earlier middle later : Scope} (first : earlier.Grows middle)
    (second : middle.Grows later) : earlier.Grows later where
  id_eq := second.id_eq.trans first.id_eq
  kind_eq := second.kind_eq.trans first.kind_eq
  span_eq := second.span_eq.trans first.span_eq
  parent_eq := second.parent_eq.trans first.parent_eq
  definitions := fun name => (first.definitions name).trans (second.definitions name)

/-- Declaring a name adds one declaration to that name and none to any other. -/
theorem Variable.find?_declareIn (name other : String) (definition : Definition)
    (declared : List Variable) :
    (((declareIn name definition declared).find? fun found => found.name == other).map
        definitions).getD [] =
      ((declared.find? fun found => found.name == other).map definitions).getD [] ++
        if other = name then [definition] else [] := by
  induction declared with
  | nil =>
      by_cases same : other = name
      · simp [declareIn, same]
      · have different : ¬name = other := fun equality => same equality.symm
        simp [declareIn, same, different]
  | cons first others induction =>
      by_cases isFirst : first.name = name
      · by_cases same : other = name
        · simp [declareIn, isFirst, same]
        · have different : ¬name = other := fun equality => same equality.symm
          simp [declareIn, isFirst, same, different]
      · by_cases found : first.name = other
        · have different : ¬other = name := fun equality => isFirst (found.trans equality)
          simp [declareIn, found, different]
        · simp [declareIn, isFirst, found, induction]

theorem Variable.names_declareIn (name : String) (definition : Definition)
    (declared : List Variable) :
    (declareIn name definition declared).map Variable.name =
      declared.map Variable.name ++ if name ∈ declared.map Variable.name then [] else [name] := by
  induction declared with
  | nil => simp [declareIn]
  | cons first others induction =>
      rw [declareIn]
      by_cases isFirst : first.name = name
      · simp [isFirst]
      · have isOther : ¬name = first.name := Ne.symm isFirst
        simp [isFirst, isOther, induction]

/-- Every name of a scope stays one variable. -/
theorem Variable.nodup_names_declareIn (name : String) (definition : Definition)
    {declared : List Variable} (distinct : (declared.map Variable.name).Nodup) :
    ((declareIn name definition declared).map Variable.name).Nodup := by
  rw [names_declareIn]
  split
  · simpa using distinct
  next isNew => exact List.nodup_append_comm.mp (List.nodup_cons.mpr ⟨isNew, distinct⟩)

namespace ScopeTree

theorem lt_size_of_getElem? {tree : ScopeTree} {index : Nat} {scope : Scope}
    (found : tree.scopes[index]? = some scope) : index < tree.size :=
  (Array.getElem?_eq_some_iff.mp found).1

theorem exists_getElem?_of_lt {tree : ScopeTree} {index : Nat} (inside : index < tree.size) :
    ∃ scope, tree.scopes[index]? = some scope :=
  ⟨_, Array.getElem?_eq_getElem inside⟩

@[simp] theorem size_createScope (tree : ScopeTree) (kind : ScopeKind) (parent : Nat)
    (span : Span) : (tree.createScope kind parent span).size = tree.size + 1 := by
  simp [createScope, size]

theorem getElem?_createScope (tree : ScopeTree) (kind : ScopeKind) (parent : Nat)
    (span : Span) (index : Nat) :
    (tree.createScope kind parent span).scopes[index]? =
      if index = tree.size then
        some { id := tree.size, kind, span, parent := some parent, declared := [] }
      else tree.scopes[index]? := by
  exact Array.getElem?_push

@[simp] theorem size_declare (tree : ScopeTree) (scope : Nat) (name : String)
    (definition : Definition) : (tree.declare scope name definition).size = tree.size := by
  simp [declare, size]

theorem getElem?_declare_of_ne (tree : ScopeTree) {scope index : Nat} (name : String)
    (definition : Definition) (different : index ≠ scope) :
    (tree.declare scope name definition).scopes[index]? = tree.scopes[index]? := by
  simp [declare, Array.getElem?_modify, Ne.symm different]

/-- A declaration changes one scope, and of that scope only the declarations of the name. -/
theorem getElem?_declare_self {tree : ScopeTree} {scope : Nat} {found : Scope}
    (at_scope : tree.scopes[scope]? = some found) (name : String) (definition : Definition) :
    ∃ later, (tree.declare scope name definition).scopes[scope]? = some later ∧
      found.Grows later ∧
      later.definitionsOf name = found.definitionsOf name ++ [definition] := by
  refine ⟨{ found with declared := Variable.declareIn name definition found.declared }, ?_, ?_, ?_⟩
  · simp [declare, Array.getElem?_modify, at_scope]
  · refine ⟨rfl, rfl, rfl, rfl, fun other => ?_⟩
    exact ⟨_, (Variable.find?_declareIn name other definition found.declared).symm⟩
  · simpa [Scope.definitionsOf, Scope.find?] using
      Variable.find?_declareIn name name definition found.declared

/-- Later trees have the scopes of earlier ones. -/
structure Extends (earlier later : ScopeTree) : Prop where
  size_le : earlier.size ≤ later.size
  grows : ∀ {index : Nat} {scope : Scope}, earlier.scopes[index]? = some scope →
    ∃ grown, later.scopes[index]? = some grown ∧ scope.Grows grown

theorem Extends.refl (tree : ScopeTree) : tree.Extends tree :=
  ⟨Nat.le_refl _, fun found => ⟨_, found, .refl _⟩⟩

theorem Extends.trans {earlier middle later : ScopeTree} (first : earlier.Extends middle)
    (second : middle.Extends later) : earlier.Extends later := by
  refine ⟨Nat.le_trans first.size_le second.size_le, ?_⟩
  intro index scope found
  obtain ⟨between, atMiddle, grows⟩ := first.grows found
  obtain ⟨grown, atLater, growsAgain⟩ := second.grows atMiddle
  exact ⟨grown, atLater, grows.trans growsAgain⟩

/-- Read backwards: what the later tree has at an earlier index has grown from there. -/
theorem Extends.grows_of_lt {earlier later : ScopeTree} (extends_ : earlier.Extends later)
    {index : Nat} {grown : Scope} (inside : index < earlier.size)
    (found : later.scopes[index]? = some grown) :
    ∃ scope, earlier.scopes[index]? = some scope ∧ scope.Grows grown := by
  obtain ⟨scope, atEarlier⟩ := exists_getElem?_of_lt inside
  obtain ⟨other, atLater, grows⟩ := extends_.grows atEarlier
  have same : other = grown := Option.some.inj (atLater.symm.trans found)
  exact ⟨scope, atEarlier, same ▸ grows⟩

theorem extends_createScope (tree : ScopeTree) (kind : ScopeKind) (parent : Nat) (span : Span) :
    tree.Extends (tree.createScope kind parent span) := by
  refine ⟨by simp, ?_⟩
  intro index scope found
  have older : index ≠ tree.size := Nat.ne_of_lt (lt_size_of_getElem? found)
  exact ⟨scope, by rw [getElem?_createScope, if_neg older, found], .refl scope⟩

theorem extends_declare (tree : ScopeTree) (scope : Nat) (name : String)
    (definition : Definition) : tree.Extends (tree.declare scope name definition) := by
  refine ⟨by simp, ?_⟩
  intro index found atIndex
  by_cases same : index = scope
  · subst same
    obtain ⟨later, atLater, grows, _⟩ := getElem?_declare_self atIndex name definition
    exact ⟨later, atLater, grows⟩
  · exact ⟨found, by rw [getElem?_declare_of_ne tree name definition same, atIndex], .refl found⟩

/-- Every scope has its index as its number, and only the module scope is not inside a scope that
was opened before it. -/
structure WellFormed (tree : ScopeTree) : Prop where
  nonempty : 0 < tree.size
  id_eq : ∀ {index : Nat} {scope : Scope}, tree.scopes[index]? = some scope → scope.id = index
  parent_lt : ∀ {index parent : Nat} {scope : Scope}, tree.scopes[index]? = some scope →
    scope.parent = some parent → parent < index
  root_of_parent_eq_none : ∀ {index : Nat} {scope : Scope}, tree.scopes[index]? = some scope →
    scope.parent = none → index = root

theorem wellFormed_ofModule (span : Span) : (ofModule span).WellFormed where
  nonempty := by simp [ofModule, size]
  id_eq := by
    intro index scope found
    have inside := lt_size_of_getElem? found
    have first : index = 0 := by simpa [ofModule, size] using inside
    subst first
    simp [ofModule] at found
    simp [← found, root]
  parent_lt := by
    intro index parent scope found inside
    have first : index = 0 := by simpa [ofModule, size] using lt_size_of_getElem? found
    subst first
    simp [ofModule] at found
    simp [← found] at inside
  root_of_parent_eq_none := by
    intro index scope found _
    simpa [ofModule, size, root] using lt_size_of_getElem? found

theorem WellFormed.createScope {tree : ScopeTree} (wellFormed : tree.WellFormed)
    (kind : ScopeKind) {parent : Nat} (span : Span) (inside : parent < tree.size) :
    (tree.createScope kind parent span).WellFormed where
  nonempty := by simp
  id_eq := by
    intro index scope found
    rw [getElem?_createScope] at found
    split at found
    · next fresh => simp [← Option.some.inj found, fresh]
    · exact wellFormed.id_eq found
  parent_lt := by
    intro index around scope found parentEq
    rw [getElem?_createScope] at found
    split at found
    · next fresh =>
        have isParent : parent = around := by simpa [← Option.some.inj found] using parentEq
        omega
    · exact wellFormed.parent_lt found parentEq
  root_of_parent_eq_none := by
    intro index scope found parentEq
    rw [getElem?_createScope] at found
    split at found
    · simp [← Option.some.inj found] at parentEq
    · exact wellFormed.root_of_parent_eq_none found parentEq

/-- A tree without new scopes stays well formed. -/
theorem WellFormed.of_extends {tree later : ScopeTree} (wellFormed : tree.WellFormed)
    (extends_ : tree.Extends later) (same : later.size = tree.size) : later.WellFormed where
  nonempty := same ▸ wellFormed.nonempty
  id_eq := by
    intro index scope found
    obtain ⟨old, atOld, grows⟩ :=
      extends_.grows_of_lt (same ▸ lt_size_of_getElem? found) found
    exact grows.id_eq.trans (wellFormed.id_eq atOld)
  parent_lt := by
    intro index parent scope found parentEq
    obtain ⟨old, atOld, grows⟩ :=
      extends_.grows_of_lt (same ▸ lt_size_of_getElem? found) found
    exact wellFormed.parent_lt atOld (grows.parent_eq.symm.trans parentEq)
  root_of_parent_eq_none := by
    intro index scope found parentEq
    obtain ⟨old, atOld, grows⟩ :=
      extends_.grows_of_lt (same ▸ lt_size_of_getElem? found) found
    exact wellFormed.root_of_parent_eq_none atOld (grows.parent_eq.symm.trans parentEq)

theorem WellFormed.declare {tree : ScopeTree} (wellFormed : tree.WellFormed) (scope : Nat)
    (name : String) (definition : Definition) :
    (tree.declare scope name definition).WellFormed :=
  wellFormed.of_extends (extends_declare tree scope name definition) (by simp)

/-- The bound of the walk does not matter once it is larger than the number of the scope. -/
theorem WellFormed.chainWithin_eq {tree : ScopeTree} (wellFormed : tree.WellFormed)
    (scope first second : Nat) (insideFirst : scope < first) (insideSecond : scope < second) :
    tree.chainWithin first (some scope) = tree.chainWithin second (some scope) := by
  induction scope using Nat.strong_induction_on generalizing first second with
  | h scope induction =>
      obtain ⟨first, rfl⟩ := Nat.exists_eq_succ_of_ne_zero (Nat.ne_zero_of_lt insideFirst)
      obtain ⟨second, rfl⟩ := Nat.exists_eq_succ_of_ne_zero (Nat.ne_zero_of_lt insideSecond)
      simp only [chainWithin]
      cases found : tree.scopes[scope]? with
      | none => rfl
      | some scopeFound =>
          cases parentEq : scopeFound.parent with
          | none => cases first <;> cases second <;> simp [parentEq, chainWithin]
          | some parent =>
              have smaller := wellFormed.parent_lt found parentEq
              simp only [parentEq]
              rw [induction parent smaller first second (by omega) (by omega)]

/-- The chain of a scope is the scope followed by the chain of the scope around it. -/
theorem WellFormed.ancestors_eq {tree : ScopeTree} (wellFormed : tree.WellFormed)
    {index : Nat} {scope : Scope} (found : tree.scopes[index]? = some scope) :
    tree.ancestors index = scope :: (scope.parent.map tree.ancestors).getD [] := by
  have inside := lt_size_of_getElem? found
  obtain ⟨bound, sizeEq⟩ := Nat.exists_eq_succ_of_ne_zero (Nat.ne_zero_of_lt inside)
  rw [ancestors, sizeEq, chainWithin]
  simp only [found]
  cases parentEq : scope.parent with
  | none => cases bound <;> simp [chainWithin]
  | some parent =>
      have smaller := wellFormed.parent_lt found parentEq
      simp only [Option.map_some, Option.getD_some, ancestors]
      rw [wellFormed.chainWithin_eq parent bound tree.size (by omega) (by omega)]

/-- The numbers of the scope and of the scopes around it, innermost first. -/
def ancestorIds (tree : ScopeTree) (scope : Nat) : List Nat :=
  (tree.ancestors scope).map Scope.id

theorem WellFormed.ancestorIds_eq {tree : ScopeTree} (wellFormed : tree.WellFormed)
    {index : Nat} {scope : Scope} (found : tree.scopes[index]? = some scope) :
    tree.ancestorIds index = index :: (scope.parent.map tree.ancestorIds).getD [] := by
  rw [ancestorIds, wellFormed.ancestors_eq found, List.map_cons, wellFormed.id_eq found]
  cases scope.parent <;> rfl

theorem WellFormed.mem_ancestorIds_iff {tree : ScopeTree} (wellFormed : tree.WellFormed)
    {index outer : Nat} {scope : Scope} (found : tree.scopes[index]? = some scope) :
    outer ∈ tree.ancestorIds index ↔
      outer = index ∨ ∃ parent, scope.parent = some parent ∧ outer ∈ tree.ancestorIds parent := by
  rw [wellFormed.ancestorIds_eq found, List.mem_cons]
  cases scope.parent <;> simp

theorem ancestorIds_eq_nil {tree : ScopeTree} {index : Nat} (outside : tree.size ≤ index) :
    tree.ancestorIds index = [] := by
  have missing : tree.scopes[index]? = none := Array.getElem?_eq_none outside
  cases sizeEq : tree.size <;> simp [ancestorIds, ancestors, sizeEq, chainWithin, missing]

theorem WellFormed.mem_ancestorIds_self {tree : ScopeTree} (wellFormed : tree.WellFormed)
    {index : Nat} (inside : index < tree.size) : index ∈ tree.ancestorIds index := by
  obtain ⟨scope, found⟩ := exists_getElem?_of_lt inside
  exact (wellFormed.mem_ancestorIds_iff found).mpr (.inl rfl)

/-- An argument about all chains follows the scopes outwards. -/
theorem WellFormed.chainInduction {tree : ScopeTree} (wellFormed : tree.WellFormed)
    {motive : Nat → Prop}
    (step : ∀ index scope, tree.scopes[index]? = some scope →
      (∀ parent, scope.parent = some parent → motive parent) → motive index) :
    ∀ index < tree.size, motive index := by
  intro index
  induction index using Nat.strong_induction_on with
  | h index induction =>
      intro inside
      obtain ⟨scope, found⟩ := exists_getElem?_of_lt inside
      refine step index scope found ?_
      intro parent parentEq
      have smaller := wellFormed.parent_lt found parentEq
      exact induction parent smaller (Nat.lt_trans smaller inside)

theorem WellFormed.le_of_mem_ancestorIds {tree : ScopeTree} (wellFormed : tree.WellFormed)
    {index outer : Nat} (member : outer ∈ tree.ancestorIds index) : outer ≤ index := by
  by_cases inside : index < tree.size
  · revert member
    refine wellFormed.chainInduction
      (motive := fun index => outer ∈ tree.ancestorIds index → outer ≤ index) ?_ index inside
    intro index scope found induction member
    rcases (wellFormed.mem_ancestorIds_iff found).mp member with rfl | ⟨parent, parentEq, above⟩
    · exact Nat.le_refl _
    · have smaller := wellFormed.parent_lt found parentEq
      exact Nat.le_trans (induction parent parentEq above) (Nat.le_of_lt smaller)
  · rw [ancestorIds_eq_nil (Nat.le_of_not_lt inside)] at member
    exact absurd member List.not_mem_nil

theorem lt_size_of_mem_ancestorIds {tree : ScopeTree} {index outer : Nat}
    (member : outer ∈ tree.ancestorIds index) : index < tree.size := by
  by_cases inside : index < tree.size
  · exact inside
  · rw [ancestorIds_eq_nil (Nat.le_of_not_lt inside)] at member
    exact absurd member List.not_mem_nil

theorem WellFormed.mem_ancestorIds_trans {tree : ScopeTree} (wellFormed : tree.WellFormed)
    {index middle outer : Nat} (first : middle ∈ tree.ancestorIds index)
    (second : outer ∈ tree.ancestorIds middle) : outer ∈ tree.ancestorIds index := by
  have inside := lt_size_of_mem_ancestorIds first
  revert first
  refine wellFormed.chainInduction
    (motive := fun index => middle ∈ tree.ancestorIds index → outer ∈ tree.ancestorIds index)
    ?_ index inside
  intro index scope found induction first
  rcases (wellFormed.mem_ancestorIds_iff found).mp first with rfl | ⟨parent, parentEq, above⟩
  · exact second
  · exact (wellFormed.mem_ancestorIds_iff found).mpr
      (.inr ⟨parent, parentEq, induction parent parentEq above⟩)

/-- Chains run outwards. -/
theorem WellFormed.pairwise_ancestorIds {tree : ScopeTree} (wellFormed : tree.WellFormed)
    (index : Nat) : (tree.ancestorIds index).Pairwise (· > ·) := by
  by_cases inside : index < tree.size
  · refine wellFormed.chainInduction
      (motive := fun index => (tree.ancestorIds index).Pairwise (· > ·)) ?_ index inside
    intro index scope found induction
    rw [wellFormed.ancestorIds_eq found]
    cases parentEq : scope.parent with
    | none => simp
    | some parent =>
        refine List.pairwise_cons.mpr ⟨?_, induction parent parentEq⟩
        intro outer above
        have smaller := wellFormed.parent_lt found parentEq
        exact Nat.lt_of_le_of_lt (wellFormed.le_of_mem_ancestorIds above) smaller
  · rw [ancestorIds_eq_nil (Nat.le_of_not_lt inside)]
    exact List.Pairwise.nil

/-- Every chain ends with the module scope. -/
theorem WellFormed.root_mem_ancestorIds {tree : ScopeTree} (wellFormed : tree.WellFormed)
    {index : Nat} (inside : index < tree.size) : root ∈ tree.ancestorIds index := by
  refine wellFormed.chainInduction
    (motive := fun index => root ∈ tree.ancestorIds index) ?_ index inside
  intro index scope found induction
  cases parentEq : scope.parent with
  | none =>
      exact (wellFormed.mem_ancestorIds_iff found).mpr
        (.inl (wellFormed.root_of_parent_eq_none found parentEq).symm)
  | some parent =>
      exact (wellFormed.mem_ancestorIds_iff found).mpr
        (.inr ⟨parent, parentEq, induction parent parentEq⟩)

theorem WellFormed.getElem?_of_mem_ancestors {tree : ScopeTree} (wellFormed : tree.WellFormed)
    {index : Nat} {scope : Scope} (inside : index < tree.size)
    (member : scope ∈ tree.ancestors index) : tree.scopes[scope.id]? = some scope := by
  revert member
  refine wellFormed.chainInduction
    (motive := fun index => scope ∈ tree.ancestors index → tree.scopes[scope.id]? = some scope)
    ?_ index inside
  intro index first found induction member
  rw [wellFormed.ancestors_eq found, List.mem_cons] at member
  rcases member with rfl | above
  · rw [wellFormed.id_eq found, found]
  · cases parentEq : first.parent with
    | none => simp [parentEq] at above
    | some parent =>
        rw [parentEq] at above
        exact induction parent parentEq above

theorem WellFormed.mem_ancestors_iff {tree : ScopeTree} (wellFormed : tree.WellFormed)
    {index outer : Nat} {scope : Scope} (inside : index < tree.size)
    (found : tree.scopes[outer]? = some scope) :
    scope ∈ tree.ancestors index ↔ outer ∈ tree.ancestorIds index := by
  constructor
  · intro member
    rw [← wellFormed.id_eq found]
    exact List.mem_map_of_mem member
  · intro member
    obtain ⟨other, isAncestor, idEq⟩ := List.mem_map.mp member
    have atOther := wellFormed.getElem?_of_mem_ancestors inside isAncestor
    rw [idEq, found] at atOther
    exact Option.some.inj atOther ▸ isAncestor

/-- The chain of a scope never changes again. -/
theorem Extends.ancestorIds_eq {earlier later : ScopeTree} (extends_ : earlier.Extends later)
    (wellFormed : earlier.WellFormed) (wellFormedLater : later.WellFormed) {index : Nat}
    (inside : index < earlier.size) : later.ancestorIds index = earlier.ancestorIds index := by
  refine wellFormed.chainInduction
    (motive := fun index => later.ancestorIds index = earlier.ancestorIds index) ?_ index inside
  intro index scope found induction
  obtain ⟨grown, atLater, grows⟩ := extends_.grows found
  rw [wellFormed.ancestorIds_eq found, wellFormedLater.ancestorIds_eq atLater, grows.parent_eq]
  cases parentEq : scope.parent with
  | none => rfl
  | some parent => simp [induction parent parentEq]

end ScopeTree

end StoreLint
