import StoreLint.Scope.Build
import StoreLint.Proofs.Tree.Parts

/-!
# What a node contributes to the scope tree

Seen from the scope tree there are two sorts of nodes.  A node of the first sort
opens a scope: its heads are visited in the scope around it, then its scope is
opened, then the names that belong to the scope are declared there, and then the
rest of it is visited inside.  A node of the second sort declares its names in a
scope that is open already, and its parts are visited in the scope around it.
`visit_of_opening` and `visit_of_not_opening` say that the traversal does just this;
everything about the traversal is derived from these two equations.
-/

namespace StoreLint

namespace Node

def opening? : Node → Option ScopeKind
  | .functionLike _ _ _ _ _ _ => some .function
  | .classLike _ _ _ _ => some .classBody
  | .getter _ _ _ _ => some .function
  | .setter _ _ _ _ _ => some .function
  | .block _ _ => some .block
  | .loop _ _ _ => some .loop
  | .catches _ _ _ => some .catchClause
  | .switch _ _ _ => some .switch
  | _ => none

/-- The parts of a node that are visited before its scope is opened. -/
def heads : Node → List Node
  | .getter _ key _ _ => [key]
  | .setter _ key _ _ _ => [key]
  | .switch _ discriminant _ => [discriminant]
  | _ => []

/-- The parts of a node that are visited after its scope is opened, if it opens one. -/
def inner : Node → List Node
  | .getter _ _ _ body => body
  | .setter _ _ _ param body => param :: body
  | .switch _ _ cases => cases
  | node => node.parts .scopes

theorem heads_append_inner (node : Node) :
    node.heads ++ node.inner = node.parts .scopes := by
  cases node <;> rfl

theorem heads_of_not_opening {node : Node} (closed : node.opening? = none) :
    node.heads = [] := by
  cases node <;> simp [opening?] at closed <;> rfl

theorem heads_sublist_parts (node : Node) : node.heads.Sublist (node.parts .scopes) := by
  rw [← heads_append_inner]
  exact List.sublist_append_left _ _

theorem inner_sublist_parts (node : Node) : node.inner.Sublist (node.parts .scopes) := by
  rw [← heads_append_inner]
  exact List.sublist_append_right _ _

theorem mem_parts_of_mem_heads {node part : Node} (member : part ∈ node.heads) :
    part ∈ node.parts .scopes :=
  node.heads_sublist_parts.subset member

theorem mem_parts_of_mem_inner {node part : Node} (member : part ∈ node.inner) :
    part ∈ node.parts .scopes :=
  node.inner_sublist_parts.subset member

/-- The declarations that belong to the scope which the node opens. -/
def ownDefinitions : Node → List Definition
  | node@(.functionLike _ _ own params _ _) =>
      own.toList.map (fun id => .of id (.functionName node)) ++
        (boundNamesList params).map fun id => .of id .parameter
  | .classLike _ own _ _ => own.toList.map fun id => .of id .className
  | .setter _ _ _ param _ => param.boundNames.map fun id => .of id .parameter
  | .catches _ param _ =>
      ((param.map boundNames).getD []).map fun id => .of id .catchClause
  | _ => []

/-- The declarations that a declarator stands for. -/
def declaratorDefinitions : Node → List Definition
  | .declarator target init =>
      match target.untyped with
      | .identifier id => [.of id (.binding init)]
      | pattern => pattern.boundNames.map fun id => .of id (.binding none)
  | _ => []

/-- The declarations that a node makes in a scope which is open around it. -/
def outerDefinitions : Node → List Definition
  | .variableList _ _ declarators => declarators.flatMap declaratorDefinitions
  | .declaration id value => [.of id (.ofDeclared value)]
  | .imports _ locals source _ => locals.map fun id => .of id (.importBinding source)
  | _ => []

end Node

namespace ScopeTree

/-- Makes each of the declarations in one scope. -/
def declareList (tree : ScopeTree) (scope : Nat) (definitions : List Definition) :
    ScopeTree :=
  definitions.foldl (fun tree definition => tree.declare scope definition.name definition) tree

/-- The scope around a node in which the node makes its declarations. -/
def bindingScope (tree : ScopeTree) (current : Nat) : Node → Nat
  | .variableList _ .hoisted _ => tree.varScope current
  | .imports _ _ _ _ => root
  | _ => current

/-- The tree right after the scope of a node has been opened and its own names have been declared
there; the heads of the node have been visited in `tree`. -/
def opened (tree : ScopeTree) (current : Nat) (kind : ScopeKind) (node : Node) : ScopeTree :=
  (tree.createScope kind current node.span).declareList tree.size node.ownDefinitions

theorem declareAll_eq (tree : ScopeTree) (scope : Nat) (kind : DefinitionKind)
    (ids : List Identifier) :
    tree.declareAll scope kind ids =
      tree.declareList scope (ids.map fun id => .of id kind) := by
  simp [declareAll, declareList, declareId, Definition.of, List.foldl_map]

theorem declareList_append (tree : ScopeTree) (scope : Nat) (first second : List Definition) :
    tree.declareList scope (first ++ second) =
      (tree.declareList scope first).declareList scope second := by
  simp [declareList]

theorem declareOwn_eq (tree : ScopeTree) (scope : Nat) (kind : DefinitionKind)
    (own : Option Identifier) :
    tree.declareOwn scope kind own =
      tree.declareList scope (own.toList.map fun id => .of id kind) := by
  cases own <;> rfl

theorem declareDeclarator_eq (tree : ScopeTree) (scope : Nat) (declarator : Node) :
    tree.declareDeclarator scope declarator =
      tree.declareList scope declarator.declaratorDefinitions := by
  fun_cases declareDeclarator tree scope declarator with
  | case1 target init id isName =>
      simp [Node.declaratorDefinitions, isName, declareList, declareId, Definition.of]
  | case2 target init notName => simp [Node.declaratorDefinitions, declareAll_eq]
  | case3 node notDeclarator => simp [Node.declaratorDefinitions, declareList]

theorem declareVariables_eq (tree : ScopeTree) (current : Nat) (span : Span)
    (kind : VariableKind) (declarators : List Node) :
    tree.declareVariables current kind declarators =
      tree.declareList (tree.bindingScope current (.variableList span kind declarators))
        (declarators.flatMap Node.declaratorDefinitions) := by
  have folded : ∀ (scope : Nat) (tree : ScopeTree),
      declarators.foldl (fun tree declarator => tree.declareDeclarator scope declarator) tree =
        tree.declareList scope (declarators.flatMap Node.declaratorDefinitions) := by
    intro scope
    induction declarators with
    | nil => intro tree; rfl
    | cons declarator declarators induction =>
        intro tree
        rw [List.flatMap_cons, declareList_append, List.foldl_cons, induction,
          declareDeclarator_eq]
  cases kind <;> exact folded _ tree

theorem visitList_append (tree : ScopeTree) (current : Nat) (first second : List Node) :
    tree.visitList current (first ++ second) =
      (tree.visitList current first).visitList current second := by
  induction first generalizing tree with
  | nil => simp [visitList]
  | cons node nodes induction => simp [visitList, induction]

theorem visitOption_eq (tree : ScopeTree) (current : Nat) (part : Option Node) :
    tree.visitOption current part = tree.visitList current part.toList := by
  cases part <;> simp [visitOption, visitList]

/-- How a node that opens a scope is visited. -/
theorem visit_of_opening {node : Node} {kind : ScopeKind} (opens : node.opening? = some kind)
    (tree : ScopeTree) (current : Nat) :
    tree.visit current node =
      ((tree.visitList current node.heads).opened current kind node).visitList
        (tree.visitList current node.heads).size node.inner := by
  cases node <;> simp only [Node.opening?, Option.some.injEq, reduceCtorEq] at opens
  all_goals
    subst kind
    simp [visit, opened, Node.heads, Node.inner, Node.parts, Extent.aside, Node.span,
      Node.ownDefinitions, visitList, visitList_append, visitOption_eq, declareAll_eq,
      declareOwn_eq, declareList]

/-- How a node that opens no scope is visited. -/
theorem visit_of_not_opening {node : Node} (closed : node.opening? = none)
    (tree : ScopeTree) (current : Nat) :
    tree.visit current node =
      (tree.declareList (tree.bindingScope current node) node.outerDefinitions).visitList
        current (node.parts .scopes) := by
  cases node <;> simp only [Node.opening?, reduceCtorEq] at closed
  case variableList span kind declarators =>
    simp [visit, Node.parts, Node.outerDefinitions, declareVariables_eq tree current span]
  all_goals
    simp [visit, Node.parts, Extent.aside, Node.outerDefinitions, bindingScope, visitList,
      visitList_append, visitOption_eq, declareAll_eq, declareList, declareId, Definition.of]

end ScopeTree

end StoreLint
