import StoreLint.Proofs.Scope.Ranges
import StoreLint.Proofs.Scope.Visits

/-!
# The local names of functions

The parameters of a function and the names of the `var` declarations in its body belong
to a scope that is opened for the function, and this scope is never looked at from a
position outside of the function.  The constructor of a class is the one exception: it
opens no scope that takes such names.  Its parameters are declared nowhere, and the
`var` declarations of its body belong to the function, or the module, around the class.
-/

namespace StoreLint

namespace Node

/-- Whether the node is a function, an accessor or a constructor. -/
def isFunctionLike : Node → Bool
  | .functionLike _ _ _ _ _ _ => true
  | .getter _ _ _ _ => true
  | .setter _ _ _ _ _ => true
  | .classConstructor _ _ _ => true
  | _ => false

/-- Whether the node is the constructor of a class. -/
def isConstructor : Node → Bool
  | .classConstructor _ _ _ => true
  | _ => false

/-- The names that the parameters of a function bind. -/
def parameterNames : Node → List Identifier
  | .functionLike _ _ _ params _ _ => boundNamesList params
  | .setter _ _ _ param _ => param.boundNames
  | .classConstructor _ params _ => boundNamesList params
  | _ => []

/-- The declarations that a `var` declaration makes. -/
def varDefinitions : Node → List Definition
  | .variableList _ .hoisted declarators => declarators.flatMap declaratorDefinitions
  | _ => []

/-- The declarations of the local names of a function: its parameters, and the names of the `var`
declarations inside it that are not inside another function. -/
def localDefinitions (function : Node) : List Definition :=
  (function.parameterNames.map fun id => .of id .parameter) ++
    (walkList .scopes (fun node => !node.isFunctionLike) function.inner).flatMap varDefinitions

theorem opening?_of_isFunctionLike {node : Node} (isFunctionLike : node.isFunctionLike = true)
    (notConstructor : node.isConstructor = false) : node.opening? = some .function := by
  cases node <;> simp_all [Node.isFunctionLike, isConstructor, opening?]

theorem opening?_of_isConstructor {node : Node} (isConstructor : node.isConstructor = true) :
    node.opening? = none := by
  cases node <;> simp_all [Node.isConstructor, opening?]

theorem isVarTarget_of_opening {node : Node} {kind : ScopeKind}
    (opens : node.opening? = some kind) :
    kind.isVarTarget = node.isFunctionLike := by
  cases node <;> simp [opening?] at opens <;> subst opens <;> rfl

theorem mem_ownDefinitions_of_parameter {node : Node} {kind : ScopeKind}
    (opens : node.opening? = some kind) {id : Identifier} (isParameter : id ∈ node.parameterNames) :
    Definition.of id .parameter ∈ node.ownDefinitions := by
  cases node with
  | functionLike span form own params body types =>
      exact List.mem_append_right _ (List.mem_map_of_mem isParameter)
  | setter span key receiver param body => exact List.mem_map_of_mem isParameter
  | classConstructor span params body => simp [opening?] at opens
  | _ => simp [parameterNames] at isParameter

end Node

namespace ScopeTree

theorem mem_definitionsOf_declareList {tree : ScopeTree} {index : Nat} (inside : index < tree.size)
    {definitions : List Definition} {definition : Definition}
    (member : definition ∈ definitions) :
    ∃ scope, (tree.declareList index definitions).scopes[index]? = some scope ∧
      definition ∈ scope.definitionsOf definition.name := by
  obtain ⟨found, atIndex⟩ := exists_getElem?_of_lt inside
  obtain ⟨scope, atScope, _, gained⟩ := (Gains.declareList tree definitions).gained atIndex
  refine ⟨scope, atScope, ?_⟩
  rw [gained]
  exact List.mem_append_right _ (List.mem_filter.mpr ⟨member, by simp⟩)

/-- The names of `var` declarations go outwards until a scope takes them. -/
theorem WellFormed.varScope_eq {tree : ScopeTree} (wellFormed : tree.WellFormed) {index : Nat}
    {scope : Scope} (found : tree.scopes[index]? = some scope) :
    tree.varScope index =
      if scope.kind.isVarTarget then index else (scope.parent.map tree.varScope).getD root := by
  rw [varScope, wellFormed.ancestors_eq found, List.find?_cons]
  cases target : scope.kind.isVarTarget with
  | true => simpa using wellFormed.id_eq found
  | false =>
      cases scope.parent with
      | none => simp
      | some parent => simp [varScope]

theorem Extends.varScope_eq {earlier later : ScopeTree} (extends_ : earlier.Extends later)
    (wellFormed : earlier.WellFormed) (wellFormedLater : later.WellFormed) {index : Nat}
    (inside : index < earlier.size) : later.varScope index = earlier.varScope index := by
  refine wellFormed.chainInduction
    (motive := fun index => later.varScope index = earlier.varScope index) ?_ index inside
  intro index scope found induction
  obtain ⟨grown, atLater, grows⟩ := extends_.grows found
  rw [wellFormed.varScope_eq found, wellFormedLater.varScope_eq atLater, grows.kind_eq,
    grows.parent_eq]
  cases parentEq : scope.parent with
  | none => rfl
  | some parent => simp [induction parent parentEq]

theorem WellFormed.varScope_le {tree : ScopeTree} (wellFormed : tree.WellFormed) {index : Nat}
    (inside : index < tree.size) : tree.varScope index ≤ index := by
  refine wellFormed.chainInduction
    (motive := fun index => tree.varScope index ≤ index) ?_ index inside
  intro index scope found induction
  rw [wellFormed.varScope_eq found]
  split
  · exact Nat.le_refl _
  · cases parentEq : scope.parent with
    | none => exact Nat.zero_le _
    | some parent =>
        exact Nat.le_trans (induction parent parentEq)
          (Nat.le_of_lt (wellFormed.parent_lt found parentEq))

end ScopeTree

namespace Visit

/-- The visits inside a function that are not inside another function. -/
inductive InBody (function : Visit) : Visit → Prop where
  | start {next : Visit} (makes : function.MakesInside next) : InBody function next
  | part {visit next : Visit} (inBody : InBody function visit)
      (notFunction : visit.node.isFunctionLike = false) (makes : visit.Makes next) :
      InBody function next

/-- The traversal makes the declaration of a local name of the function in the scope with the
given number. -/
inductive DeclaresLocal (function : Visit) : Nat → Definition → Prop where
  /-- A parameter belongs to the scope that the function opens. -/
  | parameter {kind : ScopeKind} {id : Identifier}
      (opens : function.node.opening? = some kind)
      (isParameter : id ∈ function.node.parameterNames) :
      DeclaresLocal function function.inside (.of id .parameter)
  /-- A `var` declaration belongs to the scope that takes it. -/
  | hoisted {visit : Visit} {definition : Definition} (inBody : function.InBody visit)
      (isLocal : definition ∈ visit.node.varDefinitions) :
      DeclaresLocal function (visit.tree.bindingScope visit.current visit.node) definition

/-- Whether all local names of the function are declared, and only in scopes that are opened while
the function is visited. -/
def Confines (function : Visit) : Prop :=
  (∀ definition ∈ function.node.localDefinitions, ∃ index,
      function.DeclaresLocal index definition) ∧
    ∀ index definition, function.DeclaresLocal index definition →
      function.tree.size ≤ index ∧ index < function.result.size

theorem bindingScope_of_varDefinitions {visit : Visit} {definition : Definition}
    (isLocal : definition ∈ visit.node.varDefinitions) :
    visit.node.opening? = none ∧ definition ∈ visit.node.outerDefinitions ∧
      visit.tree.bindingScope visit.current visit.node = visit.tree.varScope visit.current := by
  unfold Node.varDefinitions at isLocal
  split at isLocal
  next span declarators isHoisted =>
    rw [isHoisted]
    exact ⟨rfl, isLocal, rfl⟩
  next => cases isLocal

/-- A function takes the `var` declarations inside it, if it opens a scope. -/
theorem varScope_entered_of_function {function : Visit}
    (openAt : function.tree.OpenAt function.current)
    (opens : function.node.opening? = some .function) :
    function.entered.varScope function.inside = function.inside := by
  have wellFormed := (openAt_entered openAt).1.wellFormed
  rw [entered_of_opening opens] at wellFormed ⊢
  rw [inside_of_opening opens]
  obtain ⟨scope, found, kindEq, _, _⟩ := ScopeTree.getElem?_opened
    (function.tree.visitList function.current function.node.heads) function.current .function
    function.node
  rw [wellFormed.varScope_eq found, kindEq]
  rfl

theorem varScope_entered_of_other {visit : Visit} (openAt : visit.tree.OpenAt visit.current)
    (notTaken : visit.node.isFunctionLike = false ∨ visit.node.opening? = none) :
    visit.entered.varScope visit.inside = visit.tree.varScope visit.current := by
  obtain ⟨openInside, older⟩ := openAt_entered openAt
  have outside : visit.entered.varScope visit.current = visit.tree.varScope visit.current :=
    older.varScope_eq openAt.wellFormed openInside.wellFormed openAt.lt_size
  cases opens : visit.node.opening? with
  | none => rw [inside_of_not_opening opens, outside]
  | some kind =>
      have notTarget : kind.isVarTarget = false := by
        rw [Node.isVarTarget_of_opening opens]
        rcases notTaken with notFunction | closed
        · exact notFunction
        · rw [opens] at closed
          cases closed
      obtain ⟨scope, found, kindEq, _, parentEq⟩ := ScopeTree.getElem?_opened
        (visit.tree.visitList visit.current visit.node.heads) visit.current kind visit.node
      rw [← entered_of_opening opens, ← inside_of_opening opens] at found
      rw [openInside.wellFormed.varScope_eq found, kindEq, notTarget, parentEq]
      exact outside

theorem MakesInside.varScope_eq {visit next : Visit} (makes : visit.MakesInside next)
    (openAt : visit.tree.OpenAt visit.current) :
    next.tree.varScope next.current = visit.entered.varScope visit.inside := by
  have openInside := (openAt_entered openAt).1
  obtain ⟨start, grown, _⟩ := makes.openAt openAt
  have sameScope : next.current = visit.inside := by
    cases makes
    rfl
  rw [sameScope]
  exact grown.varScope_eq openInside.wellFormed start.wellFormed openInside.lt_size

theorem Makes.varScope_eq {visit next : Visit} (makes : visit.Makes next)
    (openAt : visit.tree.OpenAt visit.current)
    (notFunction : visit.node.isFunctionLike = false) :
    next.tree.varScope next.current = visit.tree.varScope visit.current := by
  rcases makes with head | inner
  · obtain ⟨start, grown, _⟩ := head.openAt openAt
    have sameScope : next.current = visit.current := by
      cases head
      rfl
    rw [sameScope]
    exact grown.varScope_eq openAt.wellFormed start.wellFormed openAt.lt_size
  · rw [inner.varScope_eq openAt, varScope_entered_of_other openAt (.inl notFunction)]

/-- What holds at every visit inside a function: the traversal is between the start and the end of
the visit of the function, and `var` declarations belong to one and the same scope. -/
theorem InBody.openAt {function visit : Visit} (inBody : function.InBody visit)
    (openAt : function.tree.OpenAt function.current) :
    visit.tree.OpenAt visit.current ∧ function.entered.Extends visit.tree ∧
      visit.result.Extends function.result ∧
      visit.tree.varScope visit.current = function.entered.varScope function.inside := by
  induction inBody with
  | start makes =>
      obtain ⟨start, grown, rest⟩ := makes.openAt openAt
      exact ⟨start, grown, rest, makes.varScope_eq openAt⟩
  | part inBody notFunction makes induction =>
      obtain ⟨before, older, newer, sameScope⟩ := induction
      obtain ⟨start, grown, rest⟩ := makes.openAt before
      exact ⟨start, older.trans grown, rest.trans newer,
        (makes.varScope_eq before notFunction).trans sameScope⟩

theorem exists_inBody {function : Visit} {node : Node}
    (member : node ∈ Node.walkList .scopes (fun node => !node.isFunctionLike) function.node.inner) :
    ∃ visit, function.InBody visit ∧ visit.node = node := by
  -- The walk and the visits stop at the same nodes, so one follows the other down the tree.
  have below : ∀ (top : Node) (visit : Visit), function.InBody visit → visit.node = top →
      node ∈ top.walk .scopes (fun node => !node.isFunctionLike) →
      ∃ visit, function.InBody visit ∧ visit.node = node := by
    intro top
    induction top using Node.inductionOnParts .scopes with
    | step top induction =>
        intro visit inBody isTop inTop
        rw [Node.walk_eq, Node.entering] at inTop
        split at inTop
        next entered =>
          rcases List.mem_cons.mp inTop with rfl | inParts
          · exact ⟨visit, inBody, isTop⟩
          · obtain ⟨part, isPart, inPart⟩ := Node.mem_walkList_iff.mp inParts
            obtain ⟨next, makes, isNext⟩ := visit.exists_makes (isTop ▸ isPart)
            have notFunction : visit.node.isFunctionLike = false := by
              rw [isTop]
              simpa using entered
            exact induction part isPart next (.part inBody notFunction makes) isNext inPart
        next => cases inTop
  obtain ⟨part, isPart, inPart⟩ := Node.mem_walkList_iff.mp member
  obtain ⟨before, after, split⟩ := List.append_of_mem isPart
  exact below part _ (.start (.inner split)) rfl inPart

theorem InBody.walk_subset {function visit : Visit} (inBody : function.InBody visit) :
    visit.node.walk .scopes (fun node => !node.isFunctionLike) ⊆
      Node.walkList .scopes (fun node => !node.isFunctionLike) function.node.inner := by
  induction inBody with
  | start makes =>
      cases makes with
      | inner split =>
          intro node member
          exact Node.mem_walkList_iff.mpr ⟨_, by simp [split], member⟩
  | @part visit next inBody notFunction makes induction =>
      intro node member
      refine induction ?_
      rw [Node.walk_eq, Node.entering, notFunction]
      exact List.mem_cons_of_mem _ (Node.mem_walkList_iff.mpr ⟨_, makes.mem_parts, member⟩)

theorem InBody.mem_localDefinitions {function visit : Visit} (inBody : function.InBody visit)
    {definition : Definition} (isLocal : definition ∈ visit.node.varDefinitions) :
    definition ∈ function.node.localDefinitions := by
  have entered : visit.node ∈ visit.node.walk .scopes (fun node => !node.isFunctionLike) := by
    unfold Node.varDefinitions at isLocal
    split at isLocal
    next span declarators isHoisted =>
      rw [isHoisted, Node.walk_eq, Node.entering]
      exact List.mem_cons_self
    next => cases isLocal
  refine List.mem_append_right _ (List.mem_flatMap.mpr ⟨visit.node, ?_, isLocal⟩)
  exact inBody.walk_subset entered

theorem DeclaresLocal.mem_localDefinitions {function : Visit} {index : Nat}
    {definition : Definition} (declares : function.DeclaresLocal index definition) :
    definition ∈ function.node.localDefinitions := by
  cases declares with
  | parameter opens isParameter =>
      exact List.mem_append_left _ (List.mem_map_of_mem isParameter)
  | hoisted inBody isLocal => exact inBody.mem_localDefinitions isLocal

theorem inside_bounds {function : Visit} (openAt : function.tree.OpenAt function.current)
    {kind : ScopeKind} (opens : function.node.opening? = some kind) :
    function.tree.size ≤ function.inside ∧ function.inside < function.result.size := by
  have heads := ScopeTree.grown_visitList function.node.heads openAt
  have inner := ScopeTree.grown_visitList function.node.inner (openAt_entered openAt).1
  have bigger := inner.extends_.size_le
  rw [← result_eq, entered_of_opening opens, ScopeTree.size_opened] at bigger
  rw [inside_of_opening opens]
  exact ⟨heads.extends_.size_le, bigger⟩

/-- Local names are confined by every function that opens a scope for them. -/
theorem confines_of_opening {function : Visit} (openAt : function.tree.OpenAt function.current)
    (opens : function.node.opening? = some .function) : function.Confines := by
  refine ⟨?_, ?_⟩
  · intro definition member
    rcases List.mem_append.mp member with isParameter | isHoisted
    · obtain ⟨id, isName, rfl⟩ := List.mem_map.mp isParameter
      exact ⟨_, .parameter opens isName⟩
    · obtain ⟨node, inBody, isLocal⟩ := List.mem_flatMap.mp isHoisted
      obtain ⟨visit, visitInBody, rfl⟩ := exists_inBody inBody
      exact ⟨_, .hoisted visitInBody isLocal⟩
  · intro index definition declares
    cases declares with
    | parameter _ _ => exact inside_bounds openAt opens
    | hoisted inBody isLocal =>
        obtain ⟨_, _, _, sameScope⟩ := inBody.openAt openAt
        rw [(bindingScope_of_varDefinitions isLocal).2.2, sameScope,
          varScope_entered_of_function openAt opens]
        exact inside_bounds openAt opens

/-- A constructor confines its local names only if it has none. -/
theorem localDefinitions_eq_nil_of_constructor {function : Visit}
    (openAt : function.tree.OpenAt function.current)
    (isConstructor : function.node.isConstructor = true) (confines : function.Confines) :
    function.node.localDefinitions = [] := by
  have closed := Node.opening?_of_isConstructor isConstructor
  refine List.eq_nil_iff_forall_not_mem.mpr fun definition member => ?_
  obtain ⟨index, declares⟩ := confines.1 definition member
  have opened := (confines.2 index definition declares).1
  cases declares with
  | parameter opens _ =>
      rw [closed] at opens
      cases opens
  | hoisted inBody isLocal =>
      -- The scope that takes the declaration is open before the constructor is visited.
      obtain ⟨_, _, _, sameScope⟩ := inBody.openAt openAt
      rw [(bindingScope_of_varDefinitions isLocal).2.2, sameScope,
        varScope_entered_of_other openAt (.inr closed)] at opened
      have outer := openAt.wellFormed.varScope_le openAt.lt_size
      have inside := openAt.lt_size
      omega

theorem confines_iff {function : Visit} (openAt : function.tree.OpenAt function.current)
    (isFunctionLike : function.node.isFunctionLike = true) :
    function.Confines ↔
      (function.node.isConstructor = true → function.node.localDefinitions = []) := by
  constructor
  · intro confines isConstructor
    exact localDefinitions_eq_nil_of_constructor openAt isConstructor confines
  · intro noLocals
    cases isConstructor : function.node.isConstructor with
    | false =>
        exact confines_of_opening openAt
          (Node.opening?_of_isFunctionLike isFunctionLike isConstructor)
    | true =>
        have none_ := noLocals isConstructor
        refine ⟨by simp [none_], ?_⟩
        intro index definition declares
        have member := declares.mem_localDefinitions
        rw [none_] at member
        cases member

section OfModule

variable {span : Span} {items : List Node}

theorem InBody.ofModule {function visit : Visit} (inBody : function.InBody visit)
    (made : OfModule span items function) : OfModule span items visit := by
  induction inBody with
  | start makes => exact .part made (.inr makes)
  | part inBody notFunction makes induction => exact .part induction makes

/-- What a visit declares is held by the scope tree of the module. -/
theorem exists_of_declares {visit : Visit} (made : OfModule span items visit) {index : Nat}
    {definitions : List Definition} {before : ScopeTree} (inside : index < before.size)
    (isEntered : visit.entered = before.declareList index definitions)
    {definition : Definition} (member : definition ∈ definitions) :
    ∃ scope, (ScopeTree.build span items).scopes[index]? = some scope ∧
      definition ∈ scope.definitionsOf definition.name := by
  obtain ⟨openAt, rest⟩ := made.openAt
  have inner := ScopeTree.grown_visitList visit.node.inner (openAt_entered openAt).1
  rw [← result_eq] at inner
  obtain ⟨declared, atDeclared, holds⟩ :=
    ScopeTree.mem_definitionsOf_declareList inside member
  rw [← isEntered] at atDeclared
  obtain ⟨scope, atScope, grows⟩ := (inner.extends_.trans rest).grows atDeclared
  exact ⟨scope, atScope, (grows.definitions definition.name).subset holds⟩

theorem DeclaresLocal.exists_scope {function : Visit} (made : OfModule span items function)
    {index : Nat} {definition : Definition} (declares : function.DeclaresLocal index definition) :
    ∃ scope, (ScopeTree.build span items).scopes[index]? = some scope ∧
      definition ∈ scope.definitionsOf definition.name := by
  cases declares with
  | parameter opens isParameter =>
      have isEntered := entered_of_opening opens
      rw [ScopeTree.opened, ← inside_of_opening opens] at isEntered
      refine exists_of_declares made ?_ isEntered
        (Node.mem_ownDefinitions_of_parameter opens isParameter)
      rw [ScopeTree.size_createScope, inside_of_opening opens]
      exact Nat.lt_succ_self _
  | hoisted inBody isLocal =>
      have visitMade := inBody.ofModule made
      have openAt := visitMade.openAt.1
      obtain ⟨closed, isOuter, isVar⟩ := bindingScope_of_varDefinitions isLocal
      refine exists_of_declares visitMade ?_ (entered_of_not_opening closed) isOuter
      rw [isVar]
      exact Nat.lt_of_le_of_lt (openAt.wellFormed.varScope_le openAt.lt_size) openAt.lt_size

/-- A scope that is opened while a node is visited lies inside the node and is not looked at from
a position outside of it. -/
theorem OfModule.not_mem_ancestors (encloses : ∀ node ∈ Node.nodesOf .scopes items, node.Encloses)
    {visit : Visit} (made : OfModule span items visit) {index : Nat}
    (new : visit.tree.size ≤ index) (inside : index < visit.result.size) :
    ∃ scope, (ScopeTree.build span items).scopes[index]? = some scope ∧
      scope.span.Within visit.node.span ∧
      ∀ position, visit.node.span.contains position = false →
        scope ∉ (ScopeTree.build span items).ancestors
          ((ScopeTree.build span items).scopeAt position) := by
  obtain ⟨openAt, rest⟩ := made.openAt
  have ranged := ScopeTree.ranged_visit visit.node
    (fun inner isInner => encloses inner (made.nodesOf_subset isInner)) openAt
  obtain ⟨found, atIndex⟩ := ScopeTree.exists_getElem?_of_lt inside
  obtain ⟨scope, atScope, grows⟩ := rest.grows atIndex
  obtain ⟨node, isNode, within⟩ := ranged.within new atIndex
  rw [List.mem_singleton.mp isNode, ← grows.span_eq] at within
  refine ⟨scope, atScope, within, ?_⟩
  intro position outside isAncestor
  have wellFormed := (ScopeTree.openAt_build span items).wellFormed
  have member := (wellFormed.mem_ancestors_iff (wellFormed.scopeAt_lt_size position)
    atScope).mp isAncestor
  have positive := openAt.wellFormed.nonempty
  have notRoot : index ≠ ScopeTree.root := by
    unfold ScopeTree.root
    omega
  have contains := within.contains
    (ScopeTree.contains_of_mem_ancestorIds_scopeAt encloses member notRoot atScope)
  rw [outside] at contains
  cases contains

/-- The `var` declarations of a constructor belong to the function or the module around its
class. -/
theorem DeclaresLocal.eq_varScope_of_constructor {function : Visit}
    (openAt : function.tree.OpenAt function.current)
    (isConstructor : function.node.isConstructor = true) {index : Nat} {definition : Definition}
    (declares : function.DeclaresLocal index definition) :
    index = function.tree.varScope function.current := by
  have closed := Node.opening?_of_isConstructor isConstructor
  cases declares with
  | parameter opens _ =>
      rw [closed] at opens
      cases opens
  | hoisted inBody isLocal =>
      obtain ⟨_, _, _, sameScope⟩ := inBody.openAt openAt
      rw [(bindingScope_of_varDefinitions isLocal).2.2, sameScope,
        varScope_entered_of_other openAt (.inr closed)]

/-- The local names of every function stay inside it, except those of constructors.  A constructor
with a parameter or a `var` declaration never keeps them inside: its `var` declarations belong to
the function or the module around the class, and its parameters are not declared. -/
theorem confines_locals_iff (encloses : ∀ node ∈ Node.nodesOf .scopes items, node.Encloses) :
    (∀ node ∈ Node.nodesOf .scopes items, ∃ visit, OfModule span items visit ∧ visit.node = node) ∧
    ∀ function, OfModule span items function → function.node.isFunctionLike = true →
      (function.Confines ↔
        (function.node.isConstructor = true → function.node.localDefinitions = [])) ∧
      (function.Confines → ∀ index definition, function.DeclaresLocal index definition →
        ∃ scope, (ScopeTree.build span items).scopes[index]? = some scope ∧
          definition ∈ scope.definitionsOf definition.name ∧
          scope.span.Within function.node.span ∧
          ∀ position, function.node.span.contains position = false →
            scope ∉ (ScopeTree.build span items).ancestors
              ((ScopeTree.build span items).scopeAt position)) ∧
      (function.node.isConstructor = true → ∀ index definition,
        function.DeclaresLocal index definition →
          index = function.tree.varScope function.current) := by
  refine ⟨fun node member => OfModule.exists_of_mem member, ?_⟩
  intro function made isFunctionLike
  have openAt := made.openAt.1
  refine ⟨confines_iff openAt isFunctionLike, ?_, ?_⟩
  · intro confines index definition declares
    obtain ⟨new, inside⟩ := confines.2 index definition declares
    obtain ⟨scope, atScope, holds⟩ := declares.exists_scope made
    obtain ⟨other, atOther, within, unseen⟩ := made.not_mem_ancestors encloses new inside
    obtain rfl : scope = other := Option.some.inj (atScope.symm.trans atOther)
    exact ⟨scope, atScope, holds, within, unseen⟩
  · intro isConstructor index definition declares
    exact declares.eq_varScope_of_constructor openAt isConstructor

end OfModule

/-- The constructor of `class A { constructor(p) { var leaked; } }`. -/
def leakingConstructor : Node :=
  .classConstructor ⟨11, 41⟩ [.identifier ⟨"p", ⟨23, 24⟩⟩]
    (some (.block ⟨26, 41⟩
      [.variableList ⟨28, 39⟩ .hoisted [.declarator (.identifier ⟨"leaked", ⟨32, 38⟩⟩) none]]))

def leakingClass : List Node :=
  [.declaration ⟨"A", ⟨7, 8⟩⟩ (.classLike ⟨1, 43⟩ none [leakingConstructor] [])]

theorem not_confines_leakingConstructor :
    (∀ node ∈ Node.nodesOf .scopes leakingClass, node.Encloses) ∧
      ∃ visit, OfModule ⟨1, 43⟩ leakingClass visit ∧ visit.node = leakingConstructor ∧
        ¬visit.Confines := by
  have encloses : ∀ node ∈ Node.nodesOf .scopes leakingClass, node.Encloses := by
    simp [leakingClass, leakingConstructor, Node.nodesOf, Node.walkList, Node.walk,
      Node.walkOption, Node.entering, Node.Encloses, Node.parts, Extent.aside, Node.span,
      Span.Within]
  have isInside : leakingConstructor ∈ Node.nodesOf .scopes leakingClass := by
    simp [leakingClass, leakingConstructor, Node.nodesOf, Node.walkList, Node.walk,
      Node.walkOption, Node.entering]
  obtain ⟨visited, confined⟩ := @confines_locals_iff ⟨1, 43⟩ leakingClass encloses
  obtain ⟨visit, made, isConstructor⟩ := visited leakingConstructor isInside
  refine ⟨encloses, visit, made, isConstructor, ?_⟩
  have isFunctionLike : visit.node.isFunctionLike = true := by
    rw [isConstructor]
    rfl
  rw [(confined visit made isFunctionLike).1, isConstructor]
  intro noLocals
  have isEmpty := noLocals rfl
  simp [leakingConstructor, Node.localDefinitions, Node.parameterNames, Node.boundNamesList,
    Node.boundNames] at isEmpty

end Visit

end StoreLint
