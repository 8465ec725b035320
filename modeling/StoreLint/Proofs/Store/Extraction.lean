import StoreLint.Proofs.Rule.Defects
import StoreLint.Proofs.Scope.Reshape
import StoreLint.Proofs.Scope.Returns

/-!
# The literal that a section stands for

A section of a store stands for at most one object literal: the literal it is written
as, or the one that a binding leads to.  One binding is followed and no more: to the
value of its last declaration, and from there to a literal or to the literal that a
function returns.  `StandsFor` says so as a relation, and `childEntries` computes the
entries of that literal.

The search fails just where the one identifier that is followed has no declaration
around it or names a function that never returns.  All other variables of the scope
tree can have any other declarations.
-/

namespace StoreLint

namespace Node

/-- The entry leaves its value to the declaration of the identifier. -/
inductive Follows : Node → Identifier → Prop where
  | shorthand {id : Identifier} : Follows (.shorthand id) id
  | value {key value : Node} {id : Identifier} (isName : value.unwrap = .identifier id) :
      Follows (.keyValue key value) id

/-- The value is the literal, or a function that returns it. -/
inductive Yields (value : Node) : Node → Prop where
  | literal {span : Span} {entries : List Node}
      (isLiteral : value.unwrap = .objectLiteral span entries) :
      Yields value (.objectLiteral span entries)
  | returned {result : Node} {span : Span} {entries : List Node}
      (returns : value.unwrap.returned? = some result)
      (isLiteral : result.unwrap = .objectLiteral span entries) :
      Yields value (.objectLiteral span entries)

theorem Follows.unique {entry : Node} {first second : Identifier} (isFirst : entry.Follows first)
    (isSecond : entry.Follows second) : first = second := by
  cases isFirst with
  | shorthand =>
      cases isSecond
      rfl
  | value isName =>
      cases isSecond with
      | value isOther =>
          rw [isName] at isOther
          cases isOther
          rfl

theorem Yields.unique {value first second : Node} (isFirst : value.Yields first)
    (isSecond : value.Yields second) : first = second := by
  cases isFirst with
  | literal isLiteral =>
      cases isSecond with
      | literal isOther => rw [← isLiteral, isOther]
      | returned returns _ =>
          rw [isLiteral] at returns
          cases returns
  | returned returns isLiteral =>
      cases isSecond with
      | literal isOther =>
          rw [isOther] at returns
          cases returns
      | returned returnsOther isOther =>
          rw [returns] at returnsOther
          cases returnsOther
          rw [← isLiteral, isOther]

theorem entriesOfValue_of_yields {value : Node} {span : Span} {entries : List Node}
    (yields : value.Yields (.objectLiteral span entries)) :
    value.entriesOfValue = properEntries entries := by
  cases yields with
  | literal isLiteral => rw [entriesOfValue, isLiteral]
  | returned returns isLiteral =>
      rw [entriesOfValue]
      split
      next isOther =>
        rw [isOther] at returns
        cases returns
      next =>
        rw [returns]
        dsimp only
        rw [isLiteral]

theorem yields_or_entriesOfValue_eq_nil (value : Node) :
    (∃ span entries, value.Yields (.objectLiteral span entries)) ∨ value.entriesOfValue = [] := by
  unfold entriesOfValue
  split
  next span entries isLiteral => exact .inl ⟨span, entries, .literal isLiteral⟩
  next =>
    split
    next result returns =>
      split
      next span entries isLiteral => exact .inl ⟨span, entries, .returned returns isLiteral⟩
      next => exact .inr rfl
    next => exact .inr rfl

end Node

/-- The value that a declaration gives to its name: the initial value of a variable, or what a
function returns first. -/
inductive Definition.HasValue (definition : Definition) (value : Node) : Prop where
  | initial (isVariable : definition.kind = .binding (some value))
  | returned {function : Node} (isFunction : definition.kind = .functionName function)
      (returns : Node.firstReturnList function.functionBody = some (some value))

theorem Definition.value?_eq_some_iff {definition : Definition} {value : Node} :
    definition.value? = .ok (some value) ↔ definition.HasValue value := by
  unfold value?
  constructor
  · intro isValue
    split at isValue
    next init isVariable =>
      cases isValue
      exact .initial isVariable
    next function isFunction =>
      split at isValue
      next result returns =>
        cases isValue
        exact .returned isFunction returns
      next => cases isValue
    next => cases isValue
  · intro hasValue
    cases hasValue with
    | initial isVariable => rw [isVariable]
    | returned isFunction returns =>
        rw [isFunction]
        dsimp only
        rw [returns]

theorem Definition.HasValue.unique {definition : Definition} {first second : Node}
    (isFirst : definition.HasValue first) (isSecond : definition.HasValue second) :
    first = second := by
  rw [← value?_eq_some_iff] at isFirst isSecond
  rw [isFirst] at isSecond
  exact Option.some.inj (Except.ok.inj isSecond)

namespace ScopeTree

/-- The last declaration of the variable that the identifier refers to. -/
def LastDeclared (tree : ScopeTree) (id : Identifier) (definition : Definition) : Prop :=
  ∃ found, tree.findVariable (tree.scopeAt id.span.lo) id.name = some found ∧
    found.definitions.getLast? = some definition

/-- The object literal that an entry stands for, as it is written or through one binding. -/
inductive StandsFor (tree : ScopeTree) : Node → Node → Prop where
  | value {key value : Node} {span : Span} {entries : List Node}
      (isLiteral : value.unwrap = .objectLiteral span entries) :
      StandsFor tree (.keyValue key value) (.objectLiteral span entries)
  | binding {entry value literal : Node} {id : Identifier} {definition : Definition}
      (follows : entry.Follows id) (isLast : tree.LastDeclared id definition)
      (hasValue : definition.HasValue value) (yields : value.Yields literal) :
      StandsFor tree entry literal

section Lookup

variable {tree : ScopeTree} {entry : Node} {id : Identifier}

theorem resolve_eq_ok_iff {definition : Definition} :
    tree.resolve id = .ok definition ↔ tree.LastDeclared id definition := by
  unfold resolve LastDeclared
  cases isFound : tree.findVariable (tree.scopeAt id.span.lo) id.name with
  | none => simp
  | some found =>
      cases isLast : found.definitions.getLast? with
      | none => simp [isLast]
      | some last => simp [isLast]

theorem childEntries_of_follows (follows : entry.Follows id) :
    tree.childEntries entry = tree.entriesOfBinding id := by
  cases follows with
  | shorthand => rfl
  | value isName => rw [childEntries, isName]

/-- An entry that follows no identifier needs no scope tree. -/
theorem childEntries_of_not_follows (tree : ScopeTree) (follows : ∀ id, ¬entry.Follows id) :
    (∃ key value span entries, entry = .keyValue key value ∧
        value.unwrap = .objectLiteral span entries ∧
        tree.childEntries entry = .ok (Node.properEntries entries)) ∨
      tree.childEntries entry = .ok [] := by
  unfold childEntries
  split
  next key value =>
    split
    next span entries isLiteral => exact .inl ⟨key, value, span, entries, rfl, isLiteral, rfl⟩
    next id isName => exact absurd (.value isName) (follows id)
    next => exact .inr rfl
  next id => exact absurd .shorthand (follows id)
  next => exact .inr rfl

theorem entriesOfBinding_of_value {definition : Definition} {value : Node}
    (isLast : tree.LastDeclared id definition) (hasValue : definition.HasValue value) :
    tree.entriesOfBinding id = .ok value.entriesOfValue := by
  apply bind_eq_ok_iff.mpr
  refine ⟨definition, resolve_eq_ok_iff.mpr isLast, ?_⟩
  apply bind_eq_ok_iff.mpr
  exact ⟨some value, Definition.value?_eq_some_iff.mpr hasValue, rfl⟩

theorem exists_of_entriesOfBinding {children : List Node}
    (found : tree.entriesOfBinding id = .ok children) :
    children = [] ∨ ∃ definition value, tree.LastDeclared id definition ∧
      definition.HasValue value ∧ children = value.entriesOfValue := by
  obtain ⟨definition, resolves, later⟩ := bind_eq_ok_iff.mp found
  obtain ⟨value, isValue, gives⟩ := bind_eq_ok_iff.mp later
  cases value with
  | none =>
      cases gives
      exact .inl rfl
  | some value =>
      cases gives
      exact .inr ⟨definition, value, resolve_eq_ok_iff.mp resolves,
        Definition.value?_eq_some_iff.mp isValue, rfl⟩

/-- The entries of the literal that an entry stands for are found. -/
theorem childEntries_of_standsFor {span : Span} {entries : List Node}
    (stands : tree.StandsFor entry (.objectLiteral span entries)) :
    tree.childEntries entry = .ok (Node.properEntries entries) := by
  cases stands with
  | value isLiteral => rw [childEntries, isLiteral]
  | binding follows isLast hasValue yields =>
      rw [childEntries_of_follows follows, entriesOfBinding_of_value isLast hasValue,
        Node.entriesOfValue_of_yields yields]

/-- Entries are found only if there is such a literal. -/
theorem childEntries_of_not_standsFor (nothing : ∀ literal, ¬tree.StandsFor entry literal)
    {children : List Node} (found : tree.childEntries entry = .ok children) : children = [] := by
  by_cases isFollowed : ∃ id, entry.Follows id
  · obtain ⟨id, follows⟩ := isFollowed
    rw [childEntries_of_follows follows] at found
    rcases exists_of_entriesOfBinding found with
      isEmpty | ⟨definition, value, isLast, hasValue, rfl⟩
    · exact isEmpty
    · rcases value.yields_or_entriesOfValue_eq_nil with ⟨span, entries, yields⟩ | isEmpty
      · exact absurd (.binding follows isLast hasValue yields) (nothing _)
      · exact isEmpty
  · rcases childEntries_of_not_follows tree (not_exists.mp isFollowed) with
      ⟨key, value, span, entries, rfl, isLiteral, _⟩ | noEntries
    · exact absurd (.value isLiteral) (nothing _)
    · rw [noEntries] at found
      cases found
      rfl

theorem LastDeclared.unique {first second : Definition} (isFirst : tree.LastDeclared id first)
    (isSecond : tree.LastDeclared id second) : first = second := by
  rw [← resolve_eq_ok_iff] at isFirst isSecond
  rw [isFirst] at isSecond
  exact Except.ok.inj isSecond

/-- An entry stands for one literal at most. -/
theorem StandsFor.unique {first second : Node} (isFirst : tree.StandsFor entry first)
    (isSecond : tree.StandsFor entry second) : first = second := by
  cases isFirst with
  | value isLiteral =>
      cases isSecond with
      | value isOther => rw [← isLiteral, isOther]
      | binding follows _ _ _ =>
          cases follows with
          | value isName =>
              rw [isLiteral] at isName
              cases isName
  | binding follows isLast hasValue yields =>
      cases isSecond with
      | value isLiteral =>
          cases follows with
          | value isName =>
              rw [isLiteral] at isName
              cases isName
      | binding followsOther isLastOther hasOther yieldsOther =>
          cases follows.unique followsOther
          cases isLast.unique isLastOther
          cases hasValue.unique hasOther
          exact yields.unique yieldsOther

theorem childEntries_congr {other : ScopeTree}
    (same : ∀ id, entry.Follows id → other.resolve id = tree.resolve id) :
    other.childEntries entry = tree.childEntries entry := by
  have sameBinding : ∀ id, entry.Follows id →
      other.entriesOfBinding id = tree.entriesOfBinding id := by
    intro id follows
    rw [entriesOfBinding, entriesOfBinding, same id follows]
  unfold childEntries
  split
  next key value =>
    split
    next => rfl
    next id isName => exact sameBinding id (.value isName)
    next => rfl
  next id => exact sameBinding id .shorthand
  next => rfl

theorem resolve_of_undeclared (undeclared : tree.Undeclared id) :
    tree.resolve id = .error (.unresolvedBinding id.name) := by
  have missing : tree.findVariable (tree.scopeAt id.span.lo) id.name = none := by
    apply List.findSome?_eq_none_iff.mpr
    intro scope isAround
    apply List.find?_eq_none.mpr
    intro found isDeclared sameName
    exact undeclared scope isAround found isDeclared (by simpa using sameName)
  rw [resolve, missing]

end Lookup

section Failure

variable {span : Span} {items : List Node} {entry : Node} {error : AnalysisError}

theorem entriesOfBinding_eq_error_iff {id : Identifier} :
    (build span items).entriesOfBinding id = .error error ↔
      (build span items).FailsAt id error := by
  constructor
  · exact failsAt_of_entriesOfBinding
  · intro fails
    apply bind_eq_error_iff.mpr
    cases fails with
    | undeclared isUndeclared => exact .inl (resolve_of_undeclared isUndeclared)
    | returnless isReturnless =>
        right
        obtain ⟨found, definition, function, isFound, isLast, isFunction, noReturn⟩ := isReturnless
        obtain ⟨declared, foundName⟩ := declared_of_findVariable isFound
        have name_eq : definition.name = id.name :=
          (declared.name_eq definition (List.mem_of_getLast? isLast)).trans foundName
        refine ⟨definition, resolve_eq_ok_iff.mpr ⟨found, isFound, isLast⟩, ?_⟩
        apply bind_eq_error_iff.mpr
        left
        rw [← name_eq]
        exact (Definition.value?_eq_error_iff isFunction).mpr ⟨rfl, noReturn⟩

/-- An entry cannot be followed just if its identifier has no declaration or no value. -/
theorem childEntries_eq_error_iff :
    (build span items).childEntries entry = .error error ↔
      ∃ id, entry.Follows id ∧ (build span items).FailsAt id error := by
  constructor
  · intro fails
    by_cases isFollowed : ∃ id, entry.Follows id
    · obtain ⟨id, follows⟩ := isFollowed
      rw [childEntries_of_follows follows] at fails
      exact ⟨id, follows, entriesOfBinding_eq_error_iff.mp fails⟩
    · rcases childEntries_of_not_follows (build span items) (not_exists.mp isFollowed) with
        ⟨_, _, _, _, _, _, found⟩ | found
      · rw [found] at fails
        cases fails
      · rw [found] at fails
        cases fails
  · rintro ⟨id, follows, fails⟩
    rw [childEntries_of_follows follows]
    exact entriesOfBinding_eq_error_iff.mpr fails

end Failure

end ScopeTree

/-- The scope in which each variable has the declarations that are given for it. -/
def Scope.redefine (declarations : Nat → Variable → List Definition) (scope : Scope) : Scope :=
  { scope with
    declared := scope.declared.map fun found =>
      { found with definitions := declarations scope.id found } }

theorem Scope.find?_redefine (declarations : Nat → Variable → List Definition) (scope : Scope)
    (name : String) :
    (scope.redefine declarations).find? name =
      (scope.find? name).map fun found =>
        { found with definitions := declarations scope.id found } := by
  simp only [find?, redefine, List.find?_map]
  rfl

namespace ScopeTree

variable {declarations : Nat → Variable → List Definition}

/-- The tree in which each variable has the declarations that are given for it; the variables
themselves stay. -/
def redefine (declarations : Nat → Variable → List Definition) (tree : ScopeTree) : ScopeTree :=
  tree.mapScopes (Scope.redefine declarations)

/-- The variable that an identifier refers to and the scope that has it. -/
def binding? (tree : ScopeTree) (id : Identifier) : Option (Scope × Variable) :=
  (tree.ancestors (tree.scopeAt id.span.lo)).findSome? fun scope =>
    (scope.find? id.name).map fun found => (scope, found)

/-- The variable that the entry's identifier refers to has the declarations it had. -/
def Keeps (tree : ScopeTree) (declarations : Nat → Variable → List Definition) (entry : Node) :
    Prop :=
  ∀ id scope found, entry.Follows id → tree.binding? id = some (scope, found) →
    declarations scope.id found = found.definitions

theorem findVariable_eq_binding? (tree : ScopeTree) (id : Identifier) :
    tree.findVariable (tree.scopeAt id.span.lo) id.name = (tree.binding? id).map Prod.snd := by
  rw [findVariable, binding?, List.map_findSome?]
  congr 1
  funext scope
  simp

theorem findVariable_redefine (tree : ScopeTree) (id : Identifier) :
    (tree.redefine declarations).findVariable
        ((tree.redefine declarations).scopeAt id.span.lo) id.name =
      (tree.binding? id).map fun place =>
        { place.2 with definitions := declarations place.1.id place.2 } := by
  have sameScope : (tree.redefine declarations).scopeAt id.span.lo = tree.scopeAt id.span.lo :=
    scopeAt_mapScopes (Scope.redefine declarations) (fun _ => rfl) tree fun _ => rfl
  have chain : (tree.redefine declarations).ancestors (tree.scopeAt id.span.lo) =
      (tree.ancestors (tree.scopeAt id.span.lo)).map (Scope.redefine declarations) :=
    ancestors_mapScopes (Scope.redefine declarations) (fun _ => rfl) tree _
  rw [findVariable, sameScope, chain, List.findSome?_map, binding?, List.map_findSome?]
  congr 1
  funext scope
  simp [Scope.find?_redefine, Function.comp_def]

/-- A section is followed to the same entries whatever other variables are declared as. -/
theorem childEntries_redefine {tree : ScopeTree} {entry : Node}
    (keeps : tree.Keeps declarations entry) :
    (tree.redefine declarations).childEntries entry = tree.childEntries entry := by
  apply childEntries_congr
  intro id follows
  rw [resolve, resolve, findVariable_redefine, findVariable_eq_binding?]
  cases isBinding : tree.binding? id with
  | none => rfl
  | some place =>
      have kept := keeps id place.1 place.2 follows isBinding
      rw [Option.map_some, Option.map_some, kept]

/-- Following an entry fails just where resolution of its one identifier fails.  Otherwise it gives
all entries, other than spreads, of the one literal that the entry stands for, or nothing if there
is none.  No variable but the one that the identifier refers to makes a difference. -/
theorem childEntries_one_literal (span : Span) (items : List Node) (entry : Node) :
    (∀ error, (build span items).childEntries entry = .error error ↔
      ∃ id, entry.Follows id ∧ (build span items).FailsAt id error) ∧
    (∀ place entries, (build span items).StandsFor entry (.objectLiteral place entries) →
      (build span items).childEntries entry = .ok (Node.properEntries entries)) ∧
    ((∀ literal, ¬(build span items).StandsFor entry literal) →
      (∀ id error, entry.Follows id → ¬(build span items).FailsAt id error) →
      (build span items).childEntries entry = .ok []) ∧
    (∀ first second, (build span items).StandsFor entry first →
      (build span items).StandsFor entry second → first = second) ∧
    ∀ declarations, (build span items).Keeps declarations entry →
      ((build span items).redefine declarations).childEntries entry =
        (build span items).childEntries entry := by
  refine ⟨?_, ?_, ?_, ?_, ?_⟩
  · intro error
    exact childEntries_eq_error_iff
  · intro place entries
    exact childEntries_of_standsFor
  · intro nothing succeeds
    cases found : (build span items).childEntries entry with
    | error error =>
        obtain ⟨id, follows, fails⟩ := childEntries_eq_error_iff.mp found
        exact absurd fails (succeeds id error follows)
    | ok children => rw [childEntries_of_not_standsFor nothing found]
  · intro first second
    exact StandsFor.unique
  · intro declarations
    exact childEntries_redefine

/-- The literal `{ a: 1, ...rest }`. -/
def madeState : Node :=
  .objectLiteral ⟨32, 49⟩
    [.keyValue (.plainKey ⟨34, 35⟩ (.identifier "a")) (.literal ⟨37, 38⟩ .other),
      .spread ⟨40, 47⟩ (.identifier ⟨"rest", ⟨43, 47⟩⟩)]

def stateSection : Node :=
  .keyValue (.plainKey ⟨83, 88⟩ (.identifier "state")) (.identifier ⟨"make", ⟨90, 94⟩⟩)

def gettersSection : Node :=
  .keyValue (.plainKey ⟨96, 103⟩ (.identifier "getters")) (.identifier ⟨"alias", ⟨105, 110⟩⟩)

/-- The scopes of
```
const rest = {}, make = () => ({ a: 1, ...rest }), alias = make;
export default { state: make, getters: alias };
```
-/
def aliasedStore : ScopeTree :=
  build ⟨1, 113⟩
    [.variableList ⟨1, 65⟩ .lexical
      [.declarator (.identifier ⟨"rest", ⟨7, 11⟩⟩) (some (.objectLiteral ⟨14, 16⟩ [])),
        .declarator (.identifier ⟨"make", ⟨18, 22⟩⟩)
          (some (.functionLike ⟨25, 50⟩ .concise none []
            [.wrapped ⟨31, 50⟩ .parentheses madeState []] [])),
        .declarator (.identifier ⟨"alias", ⟨52, 57⟩⟩) (some (.identifier ⟨"make", ⟨60, 64⟩⟩))],
      .objectLiteral ⟨81, 112⟩ [stateSection, gettersSection]]

/-- Declarations by which all variables but `alias` become parameters. -/
def exceptAlias (_ : Nat) (found : Variable) : List Definition :=
  if found.name = "alias" then found.definitions else [⟨found.name, .parameter, .dummy⟩]

/-- The function behind `state` is followed to the literal it returns.  The name behind `getters`
is not followed on to that function. -/
theorem childEntries_one_literal_aliasedStore :
    aliasedStore.StandsFor stateSection madeState ∧
      aliasedStore.childEntries stateSection = .ok
        [.keyValue (.plainKey ⟨34, 35⟩ (.identifier "a")) (.literal ⟨37, 38⟩ .other)] ∧
      aliasedStore.Keeps exceptAlias gettersSection ∧
      (aliasedStore.redefine exceptAlias).childEntries stateSection = .ok [] ∧
      (aliasedStore.redefine exceptAlias).childEntries gettersSection =
        aliasedStore.childEntries gettersSection := by
  have stands : aliasedStore.StandsFor stateSection madeState :=
    .binding (.value rfl) ⟨_, rfl, rfl⟩ (.initial rfl) (.returned rfl rfl)
  have keeps : aliasedStore.Keeps exceptAlias gettersSection := by
    intro id scope found follows isBinding
    cases follows.unique (show gettersSection.Follows ⟨"alias", ⟨105, 110⟩⟩ from .value rfl)
    obtain ⟨_, _, isFound⟩ := List.exists_of_findSome?_eq_some isBinding
    obtain ⟨_, holds, same⟩ := Option.map_eq_some_iff.mp isFound
    cases same
    exact if_pos (by simpa using List.find?_some holds)
  have altered : (aliasedStore.redefine exceptAlias).childEntries stateSection = .ok [] := by
    rw [childEntries_of_follows (show stateSection.Follows ⟨"make", ⟨90, 94⟩⟩ from .value rfl),
      entriesOfBinding, resolve, findVariable_redefine]
    rfl
  obtain ⟨_, found, _, _, _⟩ := childEntries_one_literal _ _ stateSection
  obtain ⟨_, _, _, _, unchanged⟩ := childEntries_one_literal _ _ gettersSection
  exact ⟨stands, found _ _ stands, keeps, altered, unchanged exceptAlias keeps⟩

end ScopeTree

end StoreLint
