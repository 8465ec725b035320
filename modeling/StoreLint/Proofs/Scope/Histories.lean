import StoreLint.Proofs.Scope.Arena

/-!
# What is done to a scope tree, and what it answers

A scope tree starts with the module scope and is changed by two steps only: a scope is
opened inside one that is there, or a name is declared in one that is there.  Whatever
the steps are, the tree answers from them alone (`faithful_of_reached`): the walk
outwards goes from parent to parent down to the module scope and is never cut short,
and a name is looked up to the declarations of the first scope on that way where it was
declared, in the order of the steps.

Everything follows from what one step keeps (`Recorded.perform`).
-/

namespace StoreLint

/-- What can be done to a scope tree. -/
inductive ScopeStep where
  | create (kind : ScopeKind) (parent : Nat) (span : Span)
  | declare (scope : Nat) (name : String) (definition : Definition)

/-- The definition that a step adds to a name of a scope. -/
def ScopeStep.definition? (scope : Nat) (name : String) : ScopeStep → Option Definition
  | .create _ _ _ => none
  | .declare target declared definition =>
      if target = scope ∧ declared = name then some definition else none

/-- The definitions that the steps add to a name of a scope, in their order. -/
def ScopeStep.definitionsIn (steps : List ScopeStep) (scope : Nat) (name : String) :
    List Definition :=
  steps.filterMap (ScopeStep.definition? scope name)

@[simp] theorem ScopeStep.definitionsIn_create (steps : List ScopeStep) (kind : ScopeKind)
    (parent : Nat) (span : Span) (scope : Nat) (name : String) :
    definitionsIn (steps ++ [.create kind parent span]) scope name =
      definitionsIn steps scope name := by
  simp [definitionsIn, definition?]

theorem ScopeStep.definitionsIn_declare (steps : List ScopeStep) (target : Nat) (declared : String)
    (definition : Definition) (scope : Nat) (name : String) :
    definitionsIn (steps ++ [.declare target declared definition]) scope name =
      definitionsIn steps scope name ++
        if target = scope ∧ declared = name then [definition] else [] := by
  rw [definitionsIn, List.filterMap_append, definitionsIn]
  by_cases same : target = scope ∧ declared = name <;> simp [definition?, same]

theorem ScopeStep.definitionsIn_eq_nil_iff {steps : List ScopeStep} {scope : Nat} {name : String} :
    definitionsIn steps scope name = [] ↔
      ∀ definition, .declare scope name definition ∉ steps := by
  rw [definitionsIn, List.filterMap_eq_nil_iff]
  constructor
  · intro nothing definition member
    simpa [definition?] using nothing _ member
  · intro nothing step member
    cases step with
    | create kind parent span => rfl
    | declare target declared definition =>
        refine if_neg ?_
        rintro ⟨rfl, rfl⟩
        exact nothing definition member

namespace ScopeTree

/-- The tree after a step. -/
def perform (tree : ScopeTree) : ScopeStep → ScopeTree
  | .create kind parent span => tree.createScope kind parent span
  | .declare scope name definition => tree.declare scope name definition

/-- Steps are about scopes that are there, and do not open a second module scope. -/
def Allows (tree : ScopeTree) : ScopeStep → Prop
  | .create kind parent _ => parent < tree.size ∧ kind ≠ .module
  | .declare scope _ _ => scope < tree.size

instance (tree : ScopeTree) (step : ScopeStep) : Decidable (tree.Allows step) :=
  match step with
  | .create kind parent _ => inferInstanceAs (Decidable (parent < tree.size ∧ kind ≠ .module))
  | .declare scope _ _ => inferInstanceAs (Decidable (scope < tree.size))

/-- The trees that steps lead to, from the module scope on. -/
inductive Reached (span : Span) : List ScopeStep → ScopeTree → Prop where
  | start : Reached span [] (ofModule span)
  | step {steps : List ScopeStep} {tree : ScopeTree} {step : ScopeStep}
      (before : Reached span steps tree) (allowed : tree.Allows step) :
      Reached span (steps ++ [step]) (tree.perform step)

/-- The scopes on the way from a scope to the module scope. -/
inductive LeadsOut (tree : ScopeTree) : Nat → List Scope → Prop where
  | module {scope : Scope} (found : tree.scopes[root]? = some scope)
      (isModule : scope.kind = .module) (outermost : scope.parent = none) :
      LeadsOut tree root [scope]
  | inside {index parent : Nat} {scope : Scope} {chain : List Scope}
      (found : tree.scopes[index]? = some scope) (around : scope.parent = some parent)
      (smaller : parent < index) (rest : LeadsOut tree parent chain) :
      LeadsOut tree index (scope :: chain)

/-- The tree answers what the steps say. -/
structure Faithful (steps : List ScopeStep) (tree : ScopeTree) : Prop where
  /-- The number of a scope is its index. -/
  id_eq : ∀ {index : Nat} {scope : Scope}, tree.scopes[index]? = some scope → scope.id = index
  /-- Every scope but the module scope is inside one with a smaller number. -/
  parent_lt : ∀ {index : Nat} {scope : Scope}, tree.scopes[index]? = some scope → index ≠ root →
    ∃ parent, scope.parent = some parent ∧ parent < index
  /-- The walk outwards ends with the module scope. -/
  leadsOut : ∀ {index : Nat}, index < tree.size → tree.LeadsOut index (tree.ancestors index)
  ids_decrease : ∀ index, ((tree.ancestors index).map Scope.id).Pairwise (· > ·)
  /-- The walk would not be longer with a larger bound. -/
  not_cut : ∀ {index bound : Nat}, index < tree.size → tree.size ≤ bound →
    tree.chainWithin bound (some index) = tree.ancestors index
  /-- The scope for `var` is the first function or module scope of the walk. -/
  varScope_eq : ∀ {index : Nat}, index < tree.size → ∃ inner target outer,
    tree.ancestors index = inner ++ target :: outer ∧
      (∀ scope ∈ inner, scope.kind ≠ .function ∧ scope.kind ≠ .module) ∧
      (target.kind = .function ∨ target.kind = .module) ∧ tree.varScope index = target.id
  /-- Every variable is found under its own name, and has a definition. -/
  stored : ∀ {index : Nat} {scope : Scope}, tree.scopes[index]? = some scope →
    ∀ found ∈ scope.declared,
      scope.find? found.name = some found ∧ found.definitions ≠ []
  /-- A name is looked up to its definitions in the first scope of the walk that has any. -/
  findVariable_eq : ∀ {index : Nat}, index < tree.size → ∀ name,
    tree.findVariable index name =
      ((tree.ancestors index).find? fun scope =>
          !(ScopeStep.definitionsIn steps scope.id name).isEmpty).map fun scope =>
        ⟨name, ScopeStep.definitionsIn steps scope.id name⟩
  findVariable_eq_none_iff : ∀ {index : Nat}, index < tree.size → ∀ name,
    tree.findVariable index name = none ↔
      ∀ scope ∈ tree.ancestors index, ∀ definition, .declare scope.id name definition ∉ steps

end ScopeTree

/-! ## The variables of a scope -/

theorem Variable.ne_nil_declareIn (name : String) (definition : Definition)
    {declared : List Variable} (ne_nil : ∀ found ∈ declared, found.definitions ≠ []) :
    ∀ found ∈ declareIn name definition declared, found.definitions ≠ [] := by
  induction declared with
  | nil => simp [declareIn]
  | cons first others induction =>
      obtain ⟨ofFirst, ofOthers⟩ := List.forall_mem_cons.mp ne_nil
      rw [declareIn]
      split
      · exact List.forall_mem_cons.mpr ⟨by simp, ofOthers⟩
      · exact List.forall_mem_cons.mpr ⟨ofFirst, induction ofOthers⟩

/-- The scope has one variable for each name with definitions, and no other. -/
structure Scope.Holds (scope : Scope) (definitions : String → List Definition) : Prop where
  ne_nil : ∀ found ∈ scope.declared, found.definitions ≠ []
  distinct : (scope.declared.map Variable.name).Nodup
  definitionsOf_eq : ∀ name, scope.definitionsOf name = definitions name

namespace Scope.Holds

variable {scope : Scope} {definitions : String → List Definition}

theorem of_declared_eq_nil (nothing : scope.declared = [])
    (none : ∀ name, definitions name = []) : scope.Holds definitions where
  ne_nil := by simp [nothing]
  distinct := by simp [nothing]
  definitionsOf_eq := by simp [definitionsOf, find?, nothing, none]

theorem find?_self (holds : scope.Holds definitions) {found : Variable}
    (member : found ∈ scope.declared) : scope.find? found.name = some found := by
  have isSome : (scope.find? found.name).isSome = true :=
    List.find?_isSome.mpr ⟨found, member, beq_self_eq_true found.name⟩
  obtain ⟨other, isOther⟩ := Option.isSome_iff_exists.mp isSome
  have sameName : other.name = found.name := by simpa using List.find?_some isOther
  have isMember := List.mem_of_find?_eq_some isOther
  rw [isOther, List.inj_on_of_nodup_map holds.distinct isMember member sameName]

theorem find?_eq (holds : scope.Holds definitions) (name : String) :
    scope.find? name =
      if (definitions name).isEmpty then none else some ⟨name, definitions name⟩ := by
  rw [← holds.definitionsOf_eq, definitionsOf]
  cases isFound : scope.find? name with
  | none => simp
  | some found =>
      have name_eq : found.name = name := by simpa using List.find?_some isFound
      have nonempty := holds.ne_nil found (List.mem_of_find?_eq_some isFound)
      simp [nonempty, ← name_eq]

theorem declare (holds : scope.Holds definitions) (name : String) (definition : Definition) :
    { scope with declared := Variable.declareIn name definition scope.declared }.Holds
      fun other => definitions other ++ if other = name then [definition] else [] where
  ne_nil := Variable.ne_nil_declareIn name definition holds.ne_nil
  distinct := Variable.nodup_names_declareIn name definition holds.distinct
  definitionsOf_eq := by
    intro other
    rw [← holds.definitionsOf_eq]
    exact Variable.find?_declareIn name other definition scope.declared

end Scope.Holds

namespace ScopeTree

/-! ## What a step keeps -/

/-- What every step keeps. -/
structure Recorded (steps : List ScopeStep) (tree : ScopeTree) : Prop where
  wellFormed : tree.WellFormed
  isModule : ∀ {scope : Scope}, tree.scopes[root]? = some scope → scope.kind = .module
  holds : ∀ {index : Nat} {scope : Scope}, tree.scopes[index]? = some scope →
    scope.Holds (ScopeStep.definitionsIn steps index)
  /-- Nothing has been declared in a scope that is not there yet. -/
  inside : ∀ {index : Nat}, tree.size ≤ index → ∀ name,
    ScopeStep.definitionsIn steps index name = []

theorem recorded_ofModule (span : Span) : Recorded [] (ofModule span) where
  wellFormed := wellFormed_ofModule span
  isModule := by
    intro scope found
    cases found
    rfl
  holds := by
    intro index scope found
    have inside := lt_size_of_getElem? found
    have first : index = 0 := by simpa [ofModule, size] using inside
    subst first
    cases found
    exact .of_declared_eq_nil rfl fun _ => rfl
  inside := fun _ _ => rfl

theorem Recorded.create {steps : List ScopeStep} {tree : ScopeTree} (recorded : Recorded steps tree)
    {kind : ScopeKind} {parent : Nat} (span : Span) (inside : parent < tree.size) :
    Recorded (steps ++ [.create kind parent span]) (tree.createScope kind parent span) where
  wellFormed := recorded.wellFormed.createScope kind span inside
  isModule := by
    intro scope found
    have older : root ≠ tree.size := Nat.ne_of_lt recorded.wellFormed.nonempty
    rw [getElem?_createScope, if_neg older] at found
    exact recorded.isModule found
  holds := by
    intro index scope found
    simp only [funext (ScopeStep.definitionsIn_create steps kind parent span index)]
    rw [getElem?_createScope] at found
    split at found
    next fresh =>
      cases found
      exact .of_declared_eq_nil rfl (recorded.inside (Nat.le_of_eq fresh.symm))
    next => exact recorded.holds found
  inside := by
    intro index outside name
    rw [size_createScope] at outside
    rw [ScopeStep.definitionsIn_create]
    exact recorded.inside (by omega) name

theorem Recorded.declare {steps : List ScopeStep} {tree : ScopeTree}
    (recorded : Recorded steps tree) {scope : Nat} (name : String) (definition : Definition)
    (inside : scope < tree.size) :
    Recorded (steps ++ [.declare scope name definition])
      (tree.declare scope name definition) where
  wellFormed := recorded.wellFormed.declare scope name definition
  isModule := by
    intro later found
    obtain ⟨earlier, atEarlier, grows⟩ := (extends_declare tree scope name definition).grows_of_lt
      recorded.wellFormed.nonempty found
    exact grows.kind_eq.trans (recorded.isModule atEarlier)
  holds := by
    intro index later found
    by_cases same : index = scope
    · subst same
      obtain ⟨earlier, atEarlier⟩ := exists_getElem?_of_lt inside
      have later_eq : later =
          { earlier with declared := Variable.declareIn name definition earlier.declared } := by
        simpa [ScopeTree.declare, Array.getElem?_modify, atEarlier] using found.symm
      have definitions_eq : ScopeStep.definitionsIn (steps ++ [.declare index name definition])
          index = fun other => ScopeStep.definitionsIn steps index other ++
            if other = name then [definition] else [] := by
        funext other
        simp [ScopeStep.definitionsIn_declare, eq_comm]
      rw [later_eq, definitions_eq]
      exact (recorded.holds atEarlier).declare name definition
    · have definitions_eq : ScopeStep.definitionsIn (steps ++ [.declare scope name definition])
          index = ScopeStep.definitionsIn steps index := by
        funext other
        simp [ScopeStep.definitionsIn_declare, Ne.symm same]
      rw [getElem?_declare_of_ne tree name definition same] at found
      rw [definitions_eq]
      exact recorded.holds found
  inside := by
    intro index outside other
    rw [size_declare] at outside
    have different : ¬(scope = index ∧ name = other) := by omega
    rw [ScopeStep.definitionsIn_declare, if_neg different, List.append_nil]
    exact recorded.inside outside other

theorem Recorded.perform {steps : List ScopeStep} {tree : ScopeTree} {step : ScopeStep}
    (recorded : Recorded steps tree) (allowed : tree.Allows step) :
    Recorded (steps ++ [step]) (tree.perform step) := by
  cases step with
  | create kind parent span => exact recorded.create span allowed.1
  | declare scope name definition => exact recorded.declare name definition allowed

theorem Reached.recorded {span : Span} {steps : List ScopeStep} {tree : ScopeTree}
    (reached : Reached span steps tree) : Recorded steps tree := by
  induction reached with
  | start => exact recorded_ofModule span
  | step _ allowed induction => exact induction.perform allowed

/-! ## What the tree answers -/

section Answers

variable {steps : List ScopeStep} {tree : ScopeTree}

theorem Recorded.leadsOut (recorded : Recorded steps tree) {index : Nat}
    (inside : index < tree.size) : tree.LeadsOut index (tree.ancestors index) := by
  refine recorded.wellFormed.chainInduction
    (motive := fun index => tree.LeadsOut index (tree.ancestors index)) ?_ index inside
  intro index scope found induction
  rw [recorded.wellFormed.ancestors_eq found]
  cases parentEq : scope.parent with
  | none =>
      cases recorded.wellFormed.root_of_parent_eq_none found parentEq
      exact .module found (recorded.isModule found) parentEq
  | some parent =>
      exact .inside found parentEq (recorded.wellFormed.parent_lt found parentEq)
        (induction parent parentEq)

theorem LeadsOut.exists_module {index : Nat} {chain : List Scope}
    (leadsOut : tree.LeadsOut index chain) : ∃ scope ∈ chain, scope.kind = .module := by
  induction leadsOut with
  | module _ isModule _ => exact ⟨_, List.mem_cons_self, isModule⟩
  | inside _ _ _ _ induction =>
      obtain ⟨scope, member, isModule⟩ := induction
      exact ⟨scope, List.mem_cons_of_mem _ member, isModule⟩

theorem Recorded.varScope_eq (recorded : Recorded steps tree) {index : Nat}
    (inside : index < tree.size) : ∃ inner target outer,
      tree.ancestors index = inner ++ target :: outer ∧
        (∀ scope ∈ inner, scope.kind ≠ .function ∧ scope.kind ≠ .module) ∧
        (target.kind = .function ∨ target.kind = .module) ∧ tree.varScope index = target.id := by
  have isVarTarget_iff : ∀ kind : ScopeKind,
      kind.isVarTarget = true ↔ kind = .function ∨ kind = .module := by
    intro kind
    cases kind <;> decide
  obtain ⟨outermost, isOutermost, isModule⟩ := (recorded.leadsOut inside).exists_module
  have isSome : ((tree.ancestors index).find? fun scope => scope.kind.isVarTarget).isSome = true :=
    List.find?_isSome.mpr ⟨outermost, isOutermost, by rw [isModule]; rfl⟩
  obtain ⟨target, isTarget⟩ := Option.isSome_iff_exists.mp isSome
  obtain ⟨takes, inner, outer, chain, before⟩ := List.find?_eq_some_iff_append.mp isTarget
  refine ⟨inner, target, outer, chain, ?_, (isVarTarget_iff _).mp takes, ?_⟩
  · intro scope member
    have passed := before scope member
    rw [Bool.not_eq_true', ← Bool.not_eq_true, isVarTarget_iff] at passed
    exact not_or.mp passed
  · rw [varScope, isTarget]

theorem Recorded.findVariable_eq (recorded : Recorded steps tree) {index : Nat}
    (inside : index < tree.size) (name : String) :
    tree.findVariable index name =
      ((tree.ancestors index).find? fun scope =>
          !(ScopeStep.definitionsIn steps scope.id name).isEmpty).map fun scope =>
        ⟨name, ScopeStep.definitionsIn steps scope.id name⟩ := by
  have each : ∀ scope ∈ tree.ancestors index, scope.find? name =
      if !(ScopeStep.definitionsIn steps scope.id name).isEmpty then
        some ⟨name, ScopeStep.definitionsIn steps scope.id name⟩
      else none := by
    intro scope member
    have found := recorded.wellFormed.getElem?_of_mem_ancestors inside member
    rw [(recorded.holds found).find?_eq name]
    cases (ScopeStep.definitionsIn steps scope.id name).isEmpty <;> rfl
  rw [findVariable]
  generalize tree.ancestors index = chain at each
  induction chain with
  | nil => rfl
  | cons scope chain induction =>
      obtain ⟨first, others⟩ := List.forall_mem_cons.mp each
      rw [List.findSome?_cons, List.find?_cons, first]
      cases !(ScopeStep.definitionsIn steps scope.id name).isEmpty with
      | true => rfl
      | false => exact induction others

end Answers

/-- Whatever is done to a scope tree, it answers what the steps say. -/
theorem faithful_of_reached {span : Span} {steps : List ScopeStep} {tree : ScopeTree}
    (reached : Reached span steps tree) : Faithful steps tree := by
  have recorded := reached.recorded
  exact
    { id_eq := recorded.wellFormed.id_eq
      parent_lt := by
        intro index scope found notRoot
        cases parentEq : scope.parent with
        | none => exact absurd (recorded.wellFormed.root_of_parent_eq_none found parentEq) notRoot
        | some parent => exact ⟨parent, rfl, recorded.wellFormed.parent_lt found parentEq⟩
      leadsOut := recorded.leadsOut
      ids_decrease := recorded.wellFormed.pairwise_ancestorIds
      not_cut := by
        intro index bound inside large
        exact recorded.wellFormed.chainWithin_eq index bound tree.size (by omega) inside
      varScope_eq := recorded.varScope_eq
      stored := by
        intro index scope found declared member
        have holds := recorded.holds found
        exact ⟨holds.find?_self member, holds.ne_nil declared member⟩
      findVariable_eq := recorded.findVariable_eq
      findVariable_eq_none_iff := by
        intro index inside name
        rw [recorded.findVariable_eq inside, Option.map_eq_none_iff, List.find?_eq_none]
        simp only [Bool.not_eq_true, Bool.not_eq_false', List.isEmpty_iff,
          ScopeStep.definitionsIn_eq_nil_iff] }

/-- The steps for `var a; (a) => { { } var a; }`. -/
def nestedSteps : List ScopeStep :=
  [.declare root "a" ⟨"a", .binding none, ⟨5, 6⟩⟩, .create .function root ⟨8, 28⟩,
    .declare 1 "a" ⟨"a", .parameter, ⟨9, 10⟩⟩, .create .block 1 ⟨17, 20⟩,
    .declare 1 "a" ⟨"a", .binding none, ⟨25, 26⟩⟩]

def nestedTree : ScopeTree := nestedSteps.foldl perform (ofModule ⟨1, 28⟩)

theorem reached_nestedTree : Reached ⟨1, 28⟩ nestedSteps nestedTree := by
  have module : Reached ⟨1, 28⟩ [] (ofModule ⟨1, 28⟩) := .start
  have hoisted := module.step
    (show Allows _ (.declare root "a" ⟨"a", .binding none, ⟨5, 6⟩⟩) by decide)
  have function := hoisted.step (show Allows _ (.create .function root ⟨8, 28⟩) by decide)
  have parameter := function.step
    (show Allows _ (.declare 1 "a" ⟨"a", .parameter, ⟨9, 10⟩⟩) by decide)
  have block := parameter.step (show Allows _ (.create .block 1 ⟨17, 20⟩) by decide)
  exact block.step (show Allows _ (.declare 1 "a" ⟨"a", .binding none, ⟨25, 26⟩⟩) by decide)

/-- From the block, `a` is the parameter and the variable of the function, and not the variable of
the module. -/
theorem faithful_nestedTree :
    Reached ⟨1, 28⟩ nestedSteps nestedTree ∧ Faithful nestedSteps nestedTree ∧
      nestedTree.ancestorIds 2 = [2, 1, 0] ∧
      nestedTree.findVariable 2 "a" =
        some ⟨"a", [⟨"a", .parameter, ⟨9, 10⟩⟩, ⟨"a", .binding none, ⟨25, 26⟩⟩]⟩ ∧
      nestedTree.findVariable 2 "b" = none := by
  have faithful := faithful_of_reached reached_nestedTree
  refine ⟨reached_nestedTree, faithful, rfl, ?_, ?_⟩
  · exact faithful.findVariable_eq (by decide) "a"
  · exact faithful.findVariable_eq (by decide) "b"

end ScopeTree

end StoreLint
