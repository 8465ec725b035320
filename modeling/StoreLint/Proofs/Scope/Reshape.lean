import Mathlib.Data.List.Forall2
import StoreLint.Proofs.Scope.Opening
import StoreLint.Scope.Resolve

/-!
# Reshaped scope trees

A scope tree holds spans and parts of the syntax tree.  They can be changed throughout
while names, kinds of scopes and parents stay as they are, and the tree is looked up in
the same way as before.  If two modules match node by node, up to such a change, then
so do their scope trees.
-/

namespace StoreLint

/-- A change of the spans in a scope tree and of what its names are declared as. -/
structure Reshape where
  span : Span → Span
  kind : DefinitionKind → DefinitionKind

def Definition.reshape (change : Reshape) (definition : Definition) : Definition :=
  { name := definition.name
    kind := change.kind definition.kind
    nameSpan := change.span definition.nameSpan }

def Variable.reshape (change : Reshape) (found : Variable) : Variable :=
  { found with definitions := found.definitions.map (Definition.reshape change) }

def Scope.reshape (change : Reshape) (scope : Scope) : Scope :=
  { scope with
    span := change.span scope.span
    declared := scope.declared.map (Variable.reshape change) }

def ScopeTree.reshape (change : Reshape) (tree : ScopeTree) : ScopeTree :=
  { scopes := tree.scopes.map (Scope.reshape change) }

namespace ScopeTree

def mapScopes (change : Scope → Scope) (tree : ScopeTree) : ScopeTree :=
  { scopes := tree.scopes.map change }

variable (change : Scope → Scope)

@[simp] theorem size_mapScopes (tree : ScopeTree) : (tree.mapScopes change).size = tree.size := by
  simp [mapScopes, size]

theorem chainWithin_mapScopes (sameParent : ∀ scope, (change scope).parent = scope.parent)
    (tree : ScopeTree) (bound : Nat) (scope : Option Nat) :
    (tree.mapScopes change).chainWithin bound scope =
      (tree.chainWithin bound scope).map change := by
  fun_induction chainWithin tree bound scope with
  | case1 => simp [chainWithin]
  | case2 => simp [chainWithin]
  | case3 bound scope missing => simp [chainWithin, mapScopes, missing]
  | case4 bound scope found atScope induction =>
      have atChanged : (tree.mapScopes change).scopes[scope]? = some (change found) := by
        simp [mapScopes, atScope]
      simp only [chainWithin, atChanged, sameParent, induction, List.map_cons]

theorem ancestors_mapScopes (sameParent : ∀ scope, (change scope).parent = scope.parent)
    (tree : ScopeTree) (scope : Nat) :
    (tree.mapScopes change).ancestors scope = (tree.ancestors scope).map change := by
  rw [ancestors, size_mapScopes, chainWithin_mapScopes change sameParent, ancestors]

/-- A position that a changed scope contains as the scope contained the old one is in the same
scope. -/
theorem scopeAt_mapScopes (sameId : ∀ scope, (change scope).id = scope.id) (tree : ScopeTree)
    {old new : Nat}
    (same : ∀ scope, (change scope).span.contains new = scope.span.contains old) :
    (tree.mapScopes change).scopeAt new = tree.scopeAt old := by
  have sameTest : ((fun scope : Scope => scope.span.contains new) ∘ change) =
      fun scope : Scope => scope.span.contains old := by
    funext scope
    exact same scope
  rw [scopeAt, scopeAt, mapScopes, Array.toList_map, ← List.map_tail, ← List.map_reverse,
    List.find?_map, sameTest]
  cases tree.scopes.toList.tail.reverse.find? fun scope => scope.span.contains old with
  | none => rfl
  | some found => exact sameId found

end ScopeTree

section Lookup

variable (change : Reshape)

theorem Variable.declareIn_reshape (name : String) (definition : Definition)
    (declared : List Variable) :
    declareIn name (definition.reshape change) (declared.map (Variable.reshape change)) =
      (declareIn name definition declared).map (Variable.reshape change) := by
  induction declared with
  | nil => simp [declareIn, Variable.reshape]
  | cons first others induction =>
      by_cases isFirst : first.name = name
      · simp [declareIn, Variable.reshape, isFirst]
      · have notFirst : (first.reshape change).name ≠ name := isFirst
        simp only [List.map_cons, declareIn, if_neg notFirst, if_neg isFirst, induction]

theorem Scope.find?_reshape (scope : Scope) (name : String) :
    (scope.reshape change).find? name = (scope.find? name).map (Variable.reshape change) := by
  simp only [find?, Scope.reshape, List.find?_map]
  rfl

namespace ScopeTree

@[simp] theorem size_reshape (tree : ScopeTree) : (tree.reshape change).size = tree.size := by
  simp [reshape, size]

theorem ofModule_reshape (span : Span) :
    (ofModule span).reshape change = ofModule (change.span span) := by
  simp [ofModule, reshape, Scope.reshape]

theorem createScope_reshape (tree : ScopeTree) (kind : ScopeKind) (parent : Nat) (span : Span) :
    (tree.reshape change).createScope kind parent (change.span span) =
      (tree.createScope kind parent span).reshape change := by
  simp [createScope, reshape, size, Scope.reshape]

theorem declare_reshape (tree : ScopeTree) (scope : Nat) (name : String)
    (definition : Definition) :
    (tree.reshape change).declare scope name (definition.reshape change) =
      (tree.declare scope name definition).reshape change := by
  unfold declare reshape
  congr 1
  apply Array.ext_getElem?
  intro index
  simp only [Array.getElem?_modify, Array.getElem?_map]
  split
  · cases tree.scopes[index]? with
    | none => rfl
    | some found => simp [Scope.reshape, Variable.declareIn_reshape]
  · rfl

theorem declareList_reshape (tree : ScopeTree) (scope : Nat) (definitions : List Definition) :
    (tree.reshape change).declareList scope (definitions.map (Definition.reshape change)) =
      (tree.declareList scope definitions).reshape change := by
  induction definitions generalizing tree with
  | nil => rfl
  | cons definition definitions induction =>
      have first := declare_reshape change tree scope definition.name definition
      have rest := induction (tree.declare scope definition.name definition)
      rw [← first] at rest
      exact rest

theorem ancestors_reshape (tree : ScopeTree) (scope : Nat) :
    (tree.reshape change).ancestors scope =
      (tree.ancestors scope).map (Scope.reshape change) :=
  ancestors_mapScopes (Scope.reshape change) (fun _ => rfl) tree scope

theorem varScope_reshape (tree : ScopeTree) (scope : Nat) :
    (tree.reshape change).varScope scope = tree.varScope scope := by
  rw [varScope, varScope, ancestors_reshape, List.find?_map]
  have sameKind : ((fun found : Scope => found.kind.isVarTarget) ∘ Scope.reshape change) =
      fun found : Scope => found.kind.isVarTarget := rfl
  rw [sameKind]
  cases (tree.ancestors scope).find? fun found => found.kind.isVarTarget with
  | none => rfl
  | some found => rfl

/-- A position that a changed span contains as the span contained the old one is in the same
scope. -/
theorem scopeAt_reshape (tree : ScopeTree) {old new : Nat}
    (same : ∀ span : Span, (change.span span).contains new = span.contains old) :
    (tree.reshape change).scopeAt new = tree.scopeAt old :=
  scopeAt_mapScopes (Scope.reshape change) (fun _ => rfl) tree fun scope => same scope.span

theorem findVariable_reshape (tree : ScopeTree) (scope : Nat) (name : String) :
    (tree.reshape change).findVariable scope name =
      (tree.findVariable scope name).map (Variable.reshape change) := by
  rw [findVariable, findVariable, ancestors_reshape, List.findSome?_map]
  induction tree.ancestors scope with
  | nil => rfl
  | cons found others induction =>
      simp only [List.findSome?_cons, Function.comp_apply, Scope.find?_reshape]
      cases found.find? name with
      | none => simpa using induction
      | some found => rfl

/-- Where the same scope is looked up, a name is resolved to the same declaration. -/
theorem resolve_reshape (tree : ScopeTree) {old new : Identifier} (sameName : new.name = old.name)
    (sameScope : (tree.reshape change).scopeAt new.span.lo = tree.scopeAt old.span.lo) :
    (tree.reshape change).resolve new = (tree.resolve old).map (Definition.reshape change) := by
  rw [resolve, resolve, sameScope, sameName, findVariable_reshape]
  cases tree.findVariable (tree.scopeAt old.span.lo) old.name with
  | none => rfl
  | some found =>
      simp only [Option.map_some, Variable.reshape, List.getLast?_map]
      cases found.definitions.getLast? with
      | none => rfl
      | some definition => rfl

end ScopeTree

end Lookup

/-- What a node and its counterpart in another module have in common, if their parts are
counterparts of each other: the same scope is opened, and the same names are declared. -/
structure Reshape.Matches (change : Reshape) (counterpart : Node → Node → Prop)
    (node other : Node) : Prop where
  opening : other.opening? = node.opening?
  span : node.opening? ≠ none → other.span = change.span node.span
  own : node.opening? ≠ none →
    other.ownDefinitions = node.ownDefinitions.map (Definition.reshape change)
  outer : other.outerDefinitions = node.outerDefinitions.map (Definition.reshape change)
  binding : ∀ (tree : ScopeTree) (current : Nat),
    (tree.reshape change).bindingScope current other = tree.bindingScope current node
  heads : List.Forall₂ counterpart node.heads other.heads
  inner : List.Forall₂ counterpart node.inner other.inner

/-- Whatever a node adds to a scope tree, its counterpart adds to the reshaped tree. -/
def Reshape.Carries (change : Reshape) (node other : Node) : Prop :=
  ∀ (tree : ScopeTree) (current : Nat),
    (tree.reshape change).visit current other = (tree.visit current node).reshape change

namespace ScopeTree

variable {change : Reshape} {counterpart : Node → Node → Prop}

theorem visitList_reshape {nodes others : List Node}
    (counterparts : List.Forall₂ counterpart nodes others)
    (each : ∀ node ∈ nodes, ∀ other, counterpart node other → change.Carries node other)
    (tree : ScopeTree) (current : Nat) :
    (tree.reshape change).visitList current others =
      (tree.visitList current nodes).reshape change := by
  induction counterparts generalizing tree with
  | nil => simp [visitList]
  | @cons node other nodes others isCounterpart _ induction =>
      have first := each node (by simp) other isCounterpart tree current
      have rest := induction (fun node isNode => each node (List.mem_cons_of_mem _ isNode))
        (tree.visit current node)
      rw [visitList, visitList, first, rest]

theorem opened_reshape {node other : Node} {kind : ScopeKind}
    (alike : change.Matches counterpart node other) (opens : node.opening? = some kind)
    (tree : ScopeTree) (current : Nat) :
    (tree.reshape change).opened current kind other =
      (tree.opened current kind node).reshape change := by
  have isOpened : node.opening? ≠ none := by simp [opens]
  rw [opened, opened, size_reshape, alike.span isOpened, createScope_reshape, alike.own isOpened,
    declareList_reshape]

theorem build_reshape {items others : List Node}
    (counterparts : List.Forall₂ counterpart items others)
    (each : ∀ item ∈ items, ∀ other, counterpart item other → change.Carries item other)
    (span : Span) :
    build (change.span span) others = (build span items).reshape change := by
  have visited := visitList_reshape counterparts each (ofModule span) root
  rw [ofModule_reshape] at visited
  exact visited

end ScopeTree

/-- A node that matches its counterpart carries over if all its parts do. -/
theorem Reshape.Matches.carries {change : Reshape} {counterpart : Node → Node → Prop}
    {node other : Node}
    (alike : change.Matches counterpart node other)
    (parts : ∀ part ∈ node.parts .scopes, ∀ form, counterpart part form →
      change.Carries part form) :
    change.Carries node other := by
  intro tree current
  cases opens : node.opening? with
  | some kind =>
      have otherOpens := alike.opening.trans opens
      have heads := ScopeTree.visitList_reshape alike.heads
        (fun part isPart => parts part (Node.mem_parts_of_mem_heads isPart)) tree current
      rw [ScopeTree.visit_of_opening otherOpens, ScopeTree.visit_of_opening opens, heads,
        ScopeTree.size_reshape, ScopeTree.opened_reshape alike opens]
      exact ScopeTree.visitList_reshape alike.inner
        (fun part isPart => parts part (Node.mem_parts_of_mem_inner isPart)) _ _
  | none =>
      have otherCloses := alike.opening.trans opens
      have children : List.Forall₂ counterpart (node.parts .scopes) (other.parts .scopes) := by
        rw [← Node.heads_append_inner, ← Node.heads_append_inner]
        exact List.rel_append alike.heads alike.inner
      rw [ScopeTree.visit_of_not_opening otherCloses, ScopeTree.visit_of_not_opening opens,
        alike.binding, alike.outer, ScopeTree.declareList_reshape]
      exact ScopeTree.visitList_reshape children parts _ _

end StoreLint
