import StoreLint.Proofs.Scope.Lexical
import StoreLint.Scope.Resolve

/-!
# When resolution fails

In a scope tree that was built for a module every variable has a declaration, and all
of its declarations bear its name.  So an identifier that cannot be resolved is
declared nowhere around it, and a declaration without a value names a function that
never returns.  The returns of a function are those among its own statements: what
stands in an expression or a declaration belongs to another function.
-/

namespace StoreLint

namespace Node

def substatements : Node → List Node
  | .block _ body => body
  | .nested _ _ bodies => bodies
  | .loop _ _ body => [body]
  | .catches _ _ body => body
  | .switch _ _ cases => cases
  | _ => []

/-- Whether a statement is a `return`. -/
def isReturn : Node → Bool
  | .returns _ _ => true
  | _ => false

/-- The statement is one of a list of statements or stands, at any depth, in one of them. -/
inductive StatementOf : List Node → Node → Prop
  | here {body : List Node} {statement : Node} (member : statement ∈ body) :
      StatementOf body statement
  | inside {body : List Node} {outer statement : Node} (member : outer ∈ body)
      (below : StatementOf outer.substatements statement) : StatementOf body statement

/-- No statement of the list, at any depth, is a `return`. -/
def Returnless (body : List Node) : Prop :=
  ∀ statement, StatementOf body statement → statement.isReturn = false

theorem mem_parts_of_mem_substatements {node statement : Node}
    (member : statement ∈ node.substatements) : statement ∈ node.parts .scopes := by
  cases node with
  | block span body => exact member
  | nested span heads bodies => exact List.mem_append_right _ member
  | loop span heads body => exact List.mem_append_right _ member
  | catches span param body => exact List.mem_append_right _ member
  | switch span discriminant cases => exact List.mem_cons_of_mem _ member
  | _ => cases member

theorem firstReturnList_eq_none_iff {body : List Node} :
    firstReturnList body = none ↔ ∀ statement ∈ body, statement.firstReturn = none := by
  induction body with
  | nil => simp [firstReturnList]
  | cons statement body induction =>
      rw [firstReturnList, List.forall_mem_cons]
      cases statement.firstReturn with
      | none => simp [induction]
      | some value => simp

theorem firstReturn_eq_none_iff {statement : Node} :
    statement.firstReturn = none ↔
      statement.isReturn = false ∧ firstReturnList statement.substatements = none := by
  cases statement with
  | loop span heads body =>
      rw [firstReturnList_eq_none_iff]
      simp [firstReturn, isReturn, substatements]
  | _ => simp [firstReturn, isReturn, substatements, firstReturnList]

theorem firstReturn_eq_none_of_returnless (statement : Node)
    (isReturn : statement.isReturn = false) (returnless : Returnless statement.substatements) :
    statement.firstReturn = none := by
  induction statement using inductionOnParts .scopes with
  | step statement induction =>
      rw [firstReturn_eq_none_iff, firstReturnList_eq_none_iff]
      refine ⟨isReturn, fun inner isInner => ?_⟩
      apply induction inner (mem_parts_of_mem_substatements isInner)
      · exact returnless inner (.here isInner)
      · exact fun deeper below => returnless deeper (.inside isInner below)

/-- A function has a first `return` unless none of its own statements is one. -/
theorem firstReturnList_eq_none_iff_returnless {body : List Node} :
    firstReturnList body = none ↔ Returnless body := by
  constructor
  · intro noReturn statement isStatement
    induction isStatement with
    | here member => exact (firstReturn_eq_none_iff.mp
        (firstReturnList_eq_none_iff.mp noReturn _ member)).1
    | inside member _ induction =>
        apply induction
        exact (firstReturn_eq_none_iff.mp (firstReturnList_eq_none_iff.mp noReturn _ member)).2
  · intro returnless
    rw [firstReturnList_eq_none_iff]
    intro statement member
    apply firstReturn_eq_none_of_returnless statement
    · exact returnless statement (.here member)
    · exact fun inner below => returnless inner (.inside member below)

end Node

/-- A variable with declarations, all of which bear its name. -/
structure Variable.Declared (found : Variable) : Prop where
  nonempty : found.definitions ≠ []
  name_eq : ∀ definition ∈ found.definitions, definition.name = found.name

theorem Variable.declared_declareIn {definition : Definition} {declared : List Variable}
    (each : ∀ found ∈ declared, found.Declared) :
    ∀ found ∈ declareIn definition.name definition declared, found.Declared := by
  induction declared with
  | nil =>
      intro found member
      rw [declareIn, List.mem_singleton] at member
      subst member
      exact ⟨by simp, by simp⟩
  | cons first others induction =>
      obtain ⟨ofFirst, ofOthers⟩ := List.forall_mem_cons.mp each
      rw [declareIn]
      split
      next sameName =>
        refine List.forall_mem_cons.mpr ⟨⟨by simp, ?_⟩, ofOthers⟩
        intro other isOther
        rcases List.mem_append.mp isOther with isOld | isNew
        · exact ofFirst.name_eq other isOld
        · rw [List.mem_singleton.mp isNew]
          exact sameName.symm
      next => exact List.forall_mem_cons.mpr ⟨ofFirst, induction ofOthers⟩

theorem Variable.declared_ofDefinitions (definitions : List Definition) :
    ∀ found ∈ ofDefinitions definitions, found.Declared := by
  have folded : ∀ declared : List Variable, (∀ found ∈ declared, found.Declared) →
      ∀ found ∈ definitions.foldl (fun declared definition =>
        declareIn definition.name definition declared) declared, found.Declared := by
    induction definitions with
    | nil => exact fun declared each => each
    | cons definition definitions induction =>
        intro declared each
        exact induction _ (declared_declareIn each)
  exact folded [] (by simp)

namespace ScopeTree

/-- No scope around the identifier declares its name. -/
def Undeclared (tree : ScopeTree) (id : Identifier) : Prop :=
  ∀ scope ∈ tree.ancestors (tree.scopeAt id.span.lo), ∀ found ∈ scope.declared,
    found.name ≠ id.name

/-- The last declaration of the variable that an identifier refers to is a function, and none of
the function's own statements is a `return`. -/
def NamesReturnless (tree : ScopeTree) (id : Identifier) : Prop :=
  ∃ found definition function,
    tree.findVariable (tree.scopeAt id.span.lo) id.name = some found ∧
      found.definitions.getLast? = some definition ∧
      definition.kind = .functionName function ∧ Node.Returnless function.functionBody

/-- What can be wrong with an identifier, and the error that says so. -/
inductive FailsAt (tree : ScopeTree) (id : Identifier) : AnalysisError → Prop
  | undeclared (isUndeclared : tree.Undeclared id) : FailsAt tree id (.unresolvedBinding id.name)
  | returnless (isReturnless : tree.NamesReturnless id) : FailsAt tree id (.missingReturn id.name)

theorem undeclared_of_findVariable {tree : ScopeTree} {id : Identifier}
    (missing : tree.findVariable (tree.scopeAt id.span.lo) id.name = none) :
    tree.Undeclared id := by
  intro scope isAround found isDeclared sameName
  have notFound := List.findSome?_eq_none_iff.mp missing scope isAround
  have different := List.find?_eq_none.mp notFound found isDeclared
  exact different (by simpa using sameName)

section Build

variable {span : Span} {items : List Node} {id : Identifier}

theorem declared_build {index : Nat} {scope : Scope}
    (atIndex : (build span items).scopes[index]? = some scope) {found : Variable}
    (isDeclared : found ∈ scope.declared) : found.Declared := by
  by_cases isRoot : index = root
  · subst isRoot
    rw [build_eq_ofOutlines] at atIndex
    cases atIndex
    exact Variable.declared_ofDefinitions _ found isDeclared
  · obtain ⟨node, _, _, _, declaredEq⟩ := exists_opening_of_getElem? isRoot atIndex
    rw [declaredEq] at isDeclared
    exact Variable.declared_ofDefinitions _ found isDeclared

theorem declared_of_findVariable {position : Nat} {name : String} {found : Variable}
    (isFound : (build span items).findVariable ((build span items).scopeAt position) name =
      some found) : found.Declared ∧ found.name = name := by
  have wellFormed := (openAt_build span items).wellFormed
  obtain ⟨_, scope, _, _, _, holds, atScope⟩ :=
    getElem?_of_findVariable wellFormed (wellFormed.scopeAt_lt_size position) isFound
  constructor
  · exact declared_build atScope (List.mem_of_find?_eq_some holds)
  · simpa using List.find?_some holds

/-- An identifier that cannot be resolved is declared nowhere around it. -/
theorem failsAt_of_resolve {error : AnalysisError}
    (fails : (build span items).resolve id = .error error) :
    (build span items).FailsAt id error := by
  unfold resolve at fails
  split at fails
  next missing =>
    cases fails
    exact .undeclared (undeclared_of_findVariable missing)
  next found isFound =>
    split at fails
    next noDefinition =>
      have nonempty := (declared_of_findVariable isFound).1.nonempty
      exact absurd (List.getLast?_eq_none_iff.mp noDefinition) nonempty
    next => cases fails

/-- A declaration whose value cannot be told is a function that never returns. -/
theorem failsAt_of_value? {definition : Definition} {error : AnalysisError}
    (resolves : (build span items).resolve id = .ok definition)
    (fails : definition.value? = .error error) : (build span items).FailsAt id error := by
  unfold resolve at resolves
  split at resolves
  · cases resolves
  next found isFound =>
    split at resolves
    · cases resolves
    next last isLast =>
      cases resolves
      obtain ⟨declared, foundName⟩ := declared_of_findVariable isFound
      have name_eq : definition.name = id.name :=
        (declared.name_eq definition (List.mem_of_getLast? isLast)).trans foundName
      unfold Definition.value? at fails
      split at fails
      next => cases fails
      next function isFunction =>
        split at fails
        next => cases fails
        next noReturn =>
          cases fails
          rw [name_eq]
          exact .returnless ⟨found, definition, function, isFound, isLast, isFunction,
            Node.firstReturnList_eq_none_iff_returnless.mp noReturn⟩
      next => cases fails

end Build

end ScopeTree

end StoreLint
