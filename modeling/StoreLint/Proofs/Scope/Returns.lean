import StoreLint.Proofs.Scope.Resolution

/-!
# The first return of a function

The search for the `return` of a function goes through the function's own statements
one after the other, each before the statements inside it.  In a body whose statements
stand in source order it therefore finds the `return` that starts first.

The value of a function declaration is found by the same search, once as the value
that the declaration stands for and once as the expression that the function returns.
-/

namespace StoreLint

namespace Node

mutual

/-- A statement and the statements inside it, each before what is inside it. -/
def statements : Node → List Node
  | node@(.block _ body) => node :: statementsList body
  | node@(.nested _ _ bodies) => node :: statementsList bodies
  | node@(.loop _ _ body) => node :: body.statements
  | node@(.catches _ _ body) => node :: statementsList body
  | node@(.switch _ _ cases) => node :: statementsList cases
  | node => [node]

def statementsList : List Node → List Node
  | [] => []
  | statement :: body => statement.statements ++ statementsList body

end

/-- What a statement returns if it is a `return`. -/
def returnValue? : Node → Option (Option Node)
  | .returns _ value => some value
  | _ => none

theorem isReturn_eq_isSome (statement : Node) :
    statement.isReturn = statement.returnValue?.isSome := by
  cases statement with
  | returns span value => rfl
  | _ => rfl

theorem statements_eq (statement : Node) :
    statement.statements = statement :: statementsList statement.substatements := by
  cases statement with
  | loop span heads body => simp [statements, substatements, statementsList]
  | _ => simp [statements, substatements, statementsList]

theorem statementsList_eq_flatMap (body : List Node) :
    statementsList body = body.flatMap statements := by
  induction body with
  | nil => rfl
  | cons statement body induction => rw [statementsList, List.flatMap_cons, induction]

theorem mem_statementsList_iff {body : List Node} {statement : Node} :
    statement ∈ statementsList body ↔ StatementOf body statement := by
  constructor
  · have inside : ∀ outer : Node, statement ∈ outer.statements →
        statement = outer ∨ StatementOf outer.substatements statement := by
      intro outer
      induction outer using inductionOnParts .scopes with
      | step outer induction =>
          intro member
          rw [statements_eq, List.mem_cons] at member
          apply member.imp_right
          intro below
          rw [statementsList_eq_flatMap, List.mem_flatMap] at below
          obtain ⟨inner, isInner, inInner⟩ := below
          rcases induction inner (mem_parts_of_mem_substatements isInner) inInner with
            rfl | deeper
          · exact .here isInner
          · exact .inside isInner deeper
    intro member
    rw [statementsList_eq_flatMap, List.mem_flatMap] at member
    obtain ⟨outer, isOuter, inOuter⟩ := member
    rcases inside outer inOuter with rfl | below
    · exact .here isOuter
    · exact .inside isOuter below
  · intro isStatement
    induction isStatement with
    | @here body statement member =>
        rw [statementsList_eq_flatMap, List.mem_flatMap]
        refine ⟨statement, member, ?_⟩
        rw [statements_eq]
        exact List.mem_cons_self
    | @inside body outer statement member _ induction =>
        rw [statementsList_eq_flatMap, List.mem_flatMap]
        refine ⟨outer, member, ?_⟩
        rw [statements_eq]
        exact List.mem_cons_of_mem _ induction

theorem firstReturn_eq_or (statement : Node) :
    statement.firstReturn =
      statement.returnValue?.or (firstReturnList statement.substatements) := by
  cases statement with
  | loop span heads body =>
      rw [firstReturn, substatements, firstReturnList, firstReturnList]
      cases body.firstReturn with
      | none => rfl
      | some value => rfl
  | _ => simp [firstReturn, returnValue?, substatements, firstReturnList]

theorem firstReturnList_cons (statement : Node) (body : List Node) :
    firstReturnList (statement :: body) = statement.firstReturn.or (firstReturnList body) := by
  rw [firstReturnList]
  cases statement.firstReturn with
  | none => rfl
  | some value => rfl

theorem firstReturnList_eq_of_forall {body : List Node}
    (each : ∀ statement ∈ body,
      statement.firstReturn = statement.statements.findSome? returnValue?) :
    firstReturnList body = (statementsList body).findSome? returnValue? := by
  induction body with
  | nil => rfl
  | cons statement body induction =>
      obtain ⟨ofStatement, ofBody⟩ := List.forall_mem_cons.mp each
      rw [firstReturnList_cons, statementsList, List.findSome?_append, ofStatement,
        induction ofBody]

theorem firstReturn_eq_findSome? (statement : Node) :
    statement.firstReturn = statement.statements.findSome? returnValue? := by
  induction statement using inductionOnParts .scopes with
  | step statement induction =>
      have inside : firstReturnList statement.substatements =
          (statementsList statement.substatements).findSome? returnValue? := by
        apply firstReturnList_eq_of_forall
        intro inner isInner
        exact induction inner (mem_parts_of_mem_substatements isInner)
      rw [firstReturn_eq_or, inside, statements_eq, List.findSome?_cons]
      cases statement.returnValue? with
      | none => rfl
      | some value => rfl

/-- The search looks at the own statements one after the other. -/
theorem firstReturnList_eq_findSome? (body : List Node) :
    firstReturnList body = (statementsList body).findSome? returnValue? := by
  apply firstReturnList_eq_of_forall
  intro statement _
  exact firstReturn_eq_findSome? statement

/-- Each statement of the list ends where the next one starts, or earlier. -/
def Follow (body : List Node) : Prop :=
  body.Pairwise fun first second => first.span.hi ≤ second.span.lo

/-- The statements of a list, and those inside one statement, follow each other, and a statement
lies in the range of the one around it. -/
structure InSourceOrder (body : List Node) : Prop where
  follow : Follow body
  inside : ∀ statement, StatementOf body statement → Follow statement.substatements
  encloses : ∀ statement, StatementOf body statement → ∀ inner ∈ statement.substatements,
    statement.span.lo ≤ inner.span.lo ∧ inner.span.hi ≤ statement.span.hi
  nonempty : ∀ statement, StatementOf body statement → statement.isReturn = true →
    statement.span.lo < statement.span.hi

instance (body : List Node) : Decidable (Follow body) :=
  inferInstanceAs (Decidable (List.Pairwise (fun first second : Node =>
    first.span.hi ≤ second.span.lo) body))

instance (body : List Node) : Decidable (InSourceOrder body) :=
  decidable_of_iff
    (Follow body ∧ ∀ statement ∈ statementsList body, Follow statement.substatements ∧
      (∀ inner ∈ statement.substatements,
        statement.span.lo ≤ inner.span.lo ∧ inner.span.hi ≤ statement.span.hi) ∧
      (statement.isReturn = true → statement.span.lo < statement.span.hi)) <| by
    simp only [mem_statementsList_iff]
    constructor
    · rintro ⟨follow, each⟩
      exact ⟨follow, fun statement member => (each statement member).1,
        fun statement member => (each statement member).2.1,
        fun statement member => (each statement member).2.2⟩
    · intro ordered
      refine ⟨ordered.follow, fun statement member => ⟨?_, ?_, ?_⟩⟩
      · exact ordered.inside statement member
      · exact ordered.encloses statement member
      · exact ordered.nonempty statement member

theorem InSourceOrder.substatements {body : List Node} (ordered : InSourceOrder body)
    {statement : Node} (member : statement ∈ body) : InSourceOrder statement.substatements := by
  constructor
  · exact ordered.inside statement (.here member)
  · intro inner isInner
    exact ordered.inside inner (.inside member isInner)
  · intro inner isInner
    exact ordered.encloses inner (.inside member isInner)
  · intro inner isInner
    exact ordered.nonempty inner (.inside member isInner)

theorem InSourceOrder.bounds {body : List Node} (ordered : InSourceOrder body)
    {outer : Node} (isOuter : outer ∈ body) {statement : Node}
    (member : statement ∈ outer.statements) :
    outer.span.lo ≤ statement.span.lo ∧ statement.span.hi ≤ outer.span.hi := by
  induction outer using inductionOnParts .scopes generalizing body with
  | step outer induction =>
      rw [statements_eq, List.mem_cons, statementsList_eq_flatMap, List.mem_flatMap] at member
      rcases member with rfl | ⟨inner, isInner, inInner⟩
      · exact ⟨Nat.le_refl _, Nat.le_refl _⟩
      · have around := ordered.encloses outer (.here isOuter) inner isInner
        have within := induction inner (mem_parts_of_mem_substatements isInner)
          (ordered.substatements isOuter) isInner inInner
        omega

/-- If both statements are a `return`, the first one starts first. -/
def ReturnsBefore (first second : Node) : Prop :=
  first.isReturn = true → second.isReturn = true → first.span.lo < second.span.lo

theorem InSourceOrder.pairwise_of_forall {body : List Node} (ordered : InSourceOrder body)
    (each : ∀ statement ∈ body, statement.statements.Pairwise ReturnsBefore) :
    (statementsList body).Pairwise ReturnsBefore := by
  rw [statementsList_eq_flatMap, List.pairwise_flatMap]
  refine ⟨each, ?_⟩
  apply ordered.follow.imp_of_mem
  intro left right isLeft isRight follows first isFirst second isSecond firstReturns _
  have firstBounds := ordered.bounds isLeft isFirst
  have secondBounds := ordered.bounds isRight isSecond
  have isStatement : StatementOf body first := by
    rw [← mem_statementsList_iff, statementsList_eq_flatMap]
    exact List.mem_flatMap.mpr ⟨left, isLeft, isFirst⟩
  have nonempty := ordered.nonempty first isStatement firstReturns
  omega

theorem InSourceOrder.pairwise_statements {body : List Node} (ordered : InSourceOrder body)
    {statement : Node} (member : statement ∈ body) :
    statement.statements.Pairwise ReturnsBefore := by
  induction statement using inductionOnParts .scopes generalizing body with
  | step statement induction =>
      rw [statements_eq, List.pairwise_cons]
      constructor
      · intro inner isInner isReturn
        -- A `return` has no statements inside it.
        cases statement with
        | returns span value => cases isInner
        | _ => cases isReturn
      · have orderedInside := ordered.substatements member
        apply orderedInside.pairwise_of_forall
        intro inner isInner
        exact induction inner (mem_parts_of_mem_substatements isInner) orderedInside isInner

/-- Own returns are listed in the order in which they start. -/
theorem InSourceOrder.pairwise_statementsList {body : List Node} (ordered : InSourceOrder body) :
    (statementsList body).Pairwise ReturnsBefore := by
  apply ordered.pairwise_of_forall
  intro statement member
  exact ordered.pairwise_statements member

/-- The statement is the own `return` that starts first. -/
structure EarliestReturn (body : List Node) (statement : Node) : Prop where
  isStatement : StatementOf body statement
  isReturn : statement.isReturn = true
  earliest : ∀ other, StatementOf body other → other.isReturn = true →
    other = statement ∨ statement.span.lo < other.span.lo

theorem EarliestReturn.unique {body : List Node} {first second : Node}
    (isFirst : EarliestReturn body first) (isSecond : EarliestReturn body second) :
    first = second := by
  rcases isSecond.earliest first isFirst.isStatement isFirst.isReturn with same | later
  · exact same
  · rcases isFirst.earliest second isSecond.isStatement isSecond.isReturn with same | earlier
    · exact same.symm
    · omega

theorem exists_earliestReturn {body : List Node} (ordered : InSourceOrder body)
    {value : Option Node} (found : firstReturnList body = some value) :
    ∃ span, EarliestReturn body (.returns span value) := by
  rw [firstReturnList_eq_findSome?, List.findSome?_eq_some_iff] at found
  obtain ⟨before, statement, after, split, isValue, noneBefore⟩ := found
  have listed := ordered.pairwise_statementsList
  rw [split, List.pairwise_append, List.pairwise_cons] at listed
  cases statement with
  | returns span returned =>
      cases isValue
      refine ⟨span, ?_, rfl, ?_⟩
      · rw [← mem_statementsList_iff, split]
        exact List.mem_append_right _ List.mem_cons_self
      · intro other isStatement isReturn
        rw [← mem_statementsList_iff, split, List.mem_append, List.mem_cons] at isStatement
        rcases isStatement with isBefore | same | isAfter
        · rw [isReturn_eq_isSome, noneBefore other isBefore] at isReturn
          cases isReturn
        · exact .inl same
        · exact .inr (listed.2.1.1 other isAfter rfl isReturn)
  | _ => cases isValue

theorem firstReturnList_eq_some_iff {body : List Node} (ordered : InSourceOrder body)
    {value : Option Node} :
    firstReturnList body = some value ↔ ∃ span, EarliestReturn body (.returns span value) := by
  constructor
  · exact exists_earliestReturn ordered
  · rintro ⟨span, isEarliest⟩
    cases found : firstReturnList body with
    | none =>
        have returnless := firstReturnList_eq_none_iff_returnless.mp found
        have notReturn := returnless _ isEarliest.isStatement
        cases notReturn
    | some other =>
        obtain ⟨otherSpan, otherEarliest⟩ := exists_earliestReturn ordered found
        cases otherEarliest.unique isEarliest
        rfl

end Node

namespace Definition

variable {definition : Definition}

theorem value?_of_functionName {function : Node}
    (isFunction : definition.kind = .functionName function) :
    definition.value? =
      match Node.firstReturnList function.functionBody with
      | some value => .ok value
      | none => .error (.missingReturn definition.name) := by
  cases found : Node.firstReturnList function.functionBody with
  | none => simp only [value?, isFunction, found]
  | some value => simp only [value?, isFunction, found]

/-- The value of a function cannot be told just if the function has no own `return`. -/
theorem value?_eq_error_iff {function : Node}
    (isFunction : definition.kind = .functionName function) {error : AnalysisError} :
    definition.value? = .error error ↔
      error = .missingReturn definition.name ∧ Node.Returnless function.functionBody := by
  rw [value?_of_functionName isFunction, ← Node.firstReturnList_eq_none_iff_returnless]
  cases Node.firstReturnList function.functionBody with
  | none => simp [eq_comm]
  | some value => simp

theorem value?_eq_returned? {span : Span} {own : Option Identifier}
    {params body types : List Node}
    (isFunction : definition.kind =
      .functionName (.functionLike span .ordinary own params body types))
    (returns : ¬Node.Returnless body) :
    definition.value? = .ok (definition.function?.bind Node.returned?) := by
  rw [← Node.firstReturnList_eq_none_iff_returnless] at returns
  rw [value?_of_functionName isFunction, function?, isFunction]
  dsimp only [Option.bind_some, Node.returned?, Node.functionBody]
  cases found : Node.firstReturnList body with
  | none => exact absurd found returns
  | some value => rfl

end Definition

/-- The search for a `return` finds the own `return` that starts first, and nothing just if there is
none.  So the value of a declared function cannot be told just if the function has no own `return`,
and is the expression that the function returns otherwise. -/
theorem firstReturn_earliest :
    (∀ body, Node.InSourceOrder body → ∀ value,
      Node.firstReturnList body = some value ↔
        ∃ span, Node.EarliestReturn body (.returns span value)) ∧
    (∀ body, Node.firstReturnList body = none ↔
      ∀ statement, Node.StatementOf body statement → statement.isReturn = false) ∧
    ∀ (definition : Definition) (span : Span) (own : Option Identifier)
      (params body types : List Node),
      definition.kind = .functionName (.functionLike span .ordinary own params body types) →
      (∀ error, definition.value? = .error error ↔
        error = .missingReturn definition.name ∧ Node.Returnless body) ∧
      (¬Node.Returnless body →
        definition.value? = .ok (definition.function?.bind Node.returned?)) := by
  refine ⟨?_, ?_, ?_⟩
  · intro body ordered value
    exact Node.firstReturnList_eq_some_iff ordered
  · intro body
    exact Node.firstReturnList_eq_none_iff_returnless
  · intro definition span own params body types isFunction
    constructor
    · intro error
      exact Definition.value?_eq_error_iff isFunction
    · exact Definition.value?_eq_returned? isFunction

/-- The body of `function f() { if (a) { for (;;) return 1; } else return; return 2; }`. -/
def branchingReturns : List Node :=
  [.nested ⟨16, 58⟩ [.identifier ⟨"a", ⟨20, 21⟩⟩]
      [.block ⟨23, 45⟩
        [.loop ⟨25, 43⟩ [] (.returns ⟨34, 43⟩ (some (.literal ⟨41, 42⟩ .other)))],
        .returns ⟨51, 58⟩ none],
    .returns ⟨59, 68⟩ (some (.literal ⟨66, 67⟩ .other))]

def branchingFunction : Definition :=
  { name := "f"
    kind := .functionName (.functionLike ⟨1, 70⟩ .ordinary none [] branchingReturns [])
    nameSpan := ⟨10, 11⟩ }

theorem firstReturn_earliest_branchingReturns :
    Node.InSourceOrder branchingReturns ∧
      (∃ span, Node.EarliestReturn branchingReturns
        (.returns span (some (.literal ⟨41, 42⟩ .other)))) ∧
      ¬Node.Returnless branchingReturns ∧
      branchingFunction.value? = .ok (branchingFunction.function?.bind Node.returned?) := by
  obtain ⟨first, noReturn, declared⟩ := firstReturn_earliest
  have ordered : Node.InSourceOrder branchingReturns := by decide
  have returns : ¬Node.Returnless branchingReturns := by
    intro returnless
    cases (noReturn branchingReturns).mpr returnless
  refine ⟨ordered, (first branchingReturns ordered _).mp rfl, returns, ?_⟩
  exact (declared branchingFunction _ _ _ _ _ rfl).2 returns

end StoreLint
