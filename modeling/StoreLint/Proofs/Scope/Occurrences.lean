import StoreLint.Proofs.Scope.Compositional
import StoreLint.Proofs.Tree.Binders

/-!
# One declaration for each name that is bound

A function binds its own name and the names of its parameters, a catch clause those of its
parameter, and a list of variables those of its declarators.  `boundInside` and
`boundAround` list these binding occurrences of a node from the names that stand in its
patterns.  `build_outlined` says that the scope tree of a module is the outline of the
module, in which each node declares just its binding occurrences.
-/

namespace StoreLint

namespace Node

def patterns : Node → List Node
  | .functionLike _ _ _ params _ _ => params
  | .setter _ _ _ param _ => [param]
  | .catches _ param _ => param.toList
  | .declarator target _ => [target]
  | _ => []

def boundBy (kind : DefinitionKind) (patterns : List Node) : List Definition :=
  patterns.flatMap fun pattern => pattern.binders.map fun binder => .of binder.2 kind

/-- The binding occurrences of a node that belong to the scope of the node. -/
def boundInside : Node → List Definition
  | node@(.functionLike _ _ own params _ _) =>
      own.toList.map (fun id => .of id (.functionName node)) ++ boundBy .parameter params
  | .classLike _ own _ _ => own.toList.map fun id => .of id .className
  | .setter _ _ _ param _ => boundBy .parameter [param]
  | .catches _ param _ => boundBy .catchClause param.toList
  | _ => []

/-- The binding occurrences of a declarator.  Only a single name keeps its initial value. -/
def boundByDeclarator : Node → List Definition
  | .declarator target init =>
      boundBy (.binding (if target.untyped.isName then init else none)) [target]
  | _ => []

/-- The binding occurrences of a node that belong to a scope around the node. -/
def boundAround : Node → List Definition
  | .variableList _ _ declarators => declarators.flatMap boundByDeclarator
  | .declaration id value => [.of id (.ofDeclared value)]
  | .imports _ locals source _ => locals.map fun id => .of id (.importBinding source)
  | _ => []

theorem boundBy_eq (kind : DefinitionKind) (patterns : List Node)
    (each : ∀ pattern ∈ patterns, pattern.IsPattern) :
    boundBy kind patterns = (boundNamesList patterns).map fun id => .of id kind := by
  rw [boundBy, boundNamesList_eq_flatMap, List.map_flatMap]
  apply List.flatMap_congr
  intro pattern isPattern
  rw [← (map_snd_binders_eq pattern).1 (each pattern isPattern), List.map_map]
  rfl

theorem ownDefinitions_eq_boundInside {node : Node}
    (each : ∀ pattern ∈ node.patterns, pattern.IsPattern) :
    node.ownDefinitions = node.boundInside := by
  cases node with
  | functionLike span form own params body types =>
      rw [ownDefinitions, boundInside, boundBy_eq .parameter params each]
  | setter span key receiver param body =>
      rw [ownDefinitions, boundInside, boundBy_eq .parameter [param] each,
        boundNamesList_eq_flatMap, List.flatMap_singleton]
  | catches span param body =>
      rw [ownDefinitions, boundInside, boundBy_eq .catchClause param.toList each,
        boundNamesList_eq_flatMap]
      cases param with
      | none => rfl
      | some param =>
          rw [Option.toList_some, List.flatMap_singleton]
          rfl
  | _ => rfl

theorem declaratorDefinitions_eq {declarator : Node}
    (each : ∀ pattern ∈ declarator.patterns, pattern.IsPattern) :
    declarator.declaratorDefinitions = declarator.boundByDeclarator := by
  cases declarator with
  | declarator target init =>
      have names := boundNames_untyped target
      rw [declaratorDefinitions, boundByDeclarator, boundBy_eq _ [target] each,
        boundNamesList_eq_flatMap, List.flatMap_singleton, ← names]
      cases target.untyped with
      | identifier id => rfl
      | _ => rfl
  | _ => rfl

/-- Whether the names of a module are bound by patterns. -/
def BoundByPatterns (items : List Node) : Prop :=
  ∀ node ∈ nodesOf .scopes items, ∀ pattern ∈ node.patterns, pattern.IsPattern

theorem outerDefinitions_eq_boundAround {items : List Node} (bound : BoundByPatterns items)
    {node : Node} (isNode : node ∈ nodesOf .scopes items) :
    node.outerDefinitions = node.boundAround := by
  cases node with
  | variableList span kind declarators =>
      apply List.flatMap_congr
      intro declarator isDeclarator
      apply declaratorDefinitions_eq
      exact bound declarator (nodesOf_subset_of_mem isNode (mem_nodesOf_of_mem_parts isDeclarator))
  | _ => rfl

end Node

namespace ScopeTree

/-- The scope tree of a module is the numbering of its outline.  Behind the module scope it has
one scope for each node that opens one.  In the outline each node declares its binding occurrences,
and so all scopes together hold one declaration for each binding occurrence. -/
theorem build_outlined (span : Span) (items : List Node) :
    build span items =
        ofOutlines span ((items.flatMap Node.escaping).map Prod.snd)
          (items.flatMap Node.outlines) ∧
      ((build span items).scopes.toList.tail.map fun scope =>
        (scope.kind, scope.span, scope.declared)).Perm
        ((Node.nodesOf .scopes items).filterMap Node.openedScope?) ∧
      (Node.BoundByPatterns items →
        (∀ node ∈ Node.nodesOf .scopes items,
          node.ownDefinitions = node.boundInside ∧ node.outerDefinitions = node.boundAround) ∧
        ((build span items).scopes.toList.flatMap Scope.definitions).Perm
          ((Node.nodesOf .scopes items).flatMap fun node =>
            node.boundInside ++ node.boundAround)) := by
  refine ⟨build_eq_ofOutlines span items, perm_openedScopes_build span items, ?_⟩
  intro bound
  have declared : ∀ node ∈ Node.nodesOf .scopes items,
      node.ownDefinitions = node.boundInside ∧ node.outerDefinitions = node.boundAround :=
    fun node isNode => ⟨Node.ownDefinitions_eq_boundInside (bound node isNode),
      Node.outerDefinitions_eq_boundAround bound isNode⟩
  refine ⟨declared, ?_⟩
  have same : ((Node.nodesOf .scopes items).flatMap fun node =>
      node.boundInside ++ node.boundAround) =
        (Node.nodesOf .scopes items).flatMap Node.bindings := by
    apply List.flatMap_congr
    intro node isNode
    rw [Node.bindings, (declared node isNode).1, (declared node isNode).2]
  rw [same]
  exact perm_definitions_build span items

end ScopeTree

/-- The function `function f(a, { b: c = 1 }) { try { var d; } catch ({ e }) {} }`. -/
def catchingFunction : Node :=
  .functionLike ⟨1, 64⟩ .ordinary none
    [.identifier ⟨"a", ⟨12, 13⟩⟩,
      .objectPattern ⟨15, 27⟩
        [.keyValue (.plainKey ⟨17, 18⟩ (.identifier "b"))
          (.defaulted ⟨20, 25⟩ (.identifier ⟨"c", ⟨20, 21⟩⟩) (.literal ⟨24, 25⟩ .other))]]
    [.nested ⟨31, 62⟩ []
      [.block ⟨35, 45⟩
          [.variableList ⟨37, 42⟩ .hoisted [.declarator (.identifier ⟨"d", ⟨41, 42⟩⟩) none]],
        .catches ⟨46, 62⟩ (some (.objectPattern ⟨53, 58⟩ [.shorthand ⟨"e", ⟨55, 56⟩⟩])) []]]
    []

def catchingFile : List Node := [.declaration ⟨"f", ⟨10, 11⟩⟩ catchingFunction]

theorem boundByPatterns_catchingFile : Node.BoundByPatterns catchingFile := by
  have destructured : (Node.objectPattern ⟨15, 27⟩
      [.keyValue (.plainKey ⟨17, 18⟩ (.identifier "b"))
        (.defaulted ⟨20, 25⟩ (.identifier ⟨"c", ⟨20, 21⟩⟩)
          (.literal ⟨24, 25⟩ .other))]).IsPattern :=
    .object (List.forall_mem_singleton.mpr (.keyValue (.defaulted .name)))
  have caught : (Node.objectPattern ⟨53, 58⟩ [.shorthand ⟨"e", ⟨55, 56⟩⟩]).IsPattern :=
    .object (List.forall_mem_singleton.mpr .shorthand)
  simp [Node.BoundByPatterns, catchingFile, catchingFunction, Node.nodesOf, Node.walkList,
    Node.walk, Node.walkOption, Node.entering, Extent.aside, Node.patterns, destructured, caught,
    Node.IsPattern.name]

theorem ScopeTree.build_outlined_catchingFile :
    Node.BoundByPatterns catchingFile ∧
      ((ScopeTree.build ⟨1, 64⟩ catchingFile).scopes.toList.flatMap Scope.definitions).Perm
        [.of ⟨"f", ⟨10, 11⟩⟩ (.functionName catchingFunction),
          .of ⟨"a", ⟨12, 13⟩⟩ .parameter,
          .of ⟨"c", ⟨20, 21⟩⟩ .parameter,
          .of ⟨"d", ⟨41, 42⟩⟩ (.binding none),
          .of ⟨"e", ⟨55, 56⟩⟩ .catchClause] := by
  have bound := boundByPatterns_catchingFile
  have destructured : (Node.objectPattern ⟨15, 27⟩
      [.keyValue (.plainKey ⟨17, 18⟩ (.identifier "b"))
        (.defaulted ⟨20, 25⟩ (.identifier ⟨"c", ⟨20, 21⟩⟩)
          (.literal ⟨24, 25⟩ .other))]).binders = [([0, 1, 0], ⟨"c", ⟨20, 21⟩⟩)] := by
    decide +kernel
  have caught : (Node.objectPattern ⟨53, 58⟩ [.shorthand ⟨"e", ⟨55, 56⟩⟩]).binders =
      [([0], ⟨"e", ⟨55, 56⟩⟩)] := by
    decide +kernel
  refine ⟨bound, ((build_outlined ⟨1, 64⟩ catchingFile).2.2 bound).2.trans (.of_eq ?_)⟩
  simp [catchingFile, catchingFunction, Node.nodesOf, Node.walkList, Node.walk, Node.walkOption,
    Node.entering, Extent.aside, Node.boundInside, Node.boundAround, Node.boundByDeclarator,
    Node.boundBy, destructured, caught, Node.untyped, Node.isName, DefinitionKind.ofDeclared]

namespace ScopeTree

/-- Whether the module has, behind the module scope, one scope for each node of the whole tree that
opens one. -/
def OpensAll (span : Span) (items : List Node) : Prop :=
  ((build span items).scopes.toList.tail.map fun scope => (scope.kind, scope.span)).Perm
    ((Node.nodesOf .whole items).filterMap fun node =>
      node.opening?.map fun kind => (kind, node.span))

instance (span : Span) (items : List Node) : Decidable (OpensAll span items) :=
  inferInstanceAs (Decidable (List.Perm _ _))

end ScopeTree

/-- The type `{ [function () {}]: string }` at a position. -/
def computedType (start : Nat) : Node :=
  .compound ⟨start, start + 28⟩
    [.computedKey ⟨start + 2, start + 18⟩
        (.functionLike ⟨start + 3, start + 17⟩ .ordinary none [] [] []),
      .compound ⟨start + 20, start + 26⟩ []]

/-- A function in the result type of a function, in the type of a getter, in the type of the
parameter `this` of a setter, and in the attributes of an import. -/
def asideFiles : List Node :=
  [.declaration ⟨"f", ⟨10, 11⟩⟩
      (.functionLike ⟨1, 48⟩ .ordinary none [] [] [computedType 15]),
    .objectLiteral ⟨1, 48⟩
      [.getter ⟨3, 46⟩ (.plainKey ⟨7, 8⟩ (.identifier "a")) [computedType 12] []],
    .objectLiteral ⟨1, 53⟩
      [.setter ⟨3, 51⟩ (.plainKey ⟨7, 8⟩ (.identifier "a"))
        (some (.annotated ⟨9, 43⟩ (.identifier ⟨"this", ⟨9, 13⟩⟩) (computedType 15)))
        (.identifier ⟨"v", ⟨45, 46⟩⟩) []],
    .imports ⟨1, 49⟩ [] "./y.json"
      (some (.objectLiteral ⟨24, 48⟩
        [.keyValue (.plainKey ⟨26, 30⟩ (.identifier "type"))
          (.functionLike ⟨32, 46⟩ .ordinary none [] [] [])]))]

/-- At each of the places that are left aside, a function opens no scope. -/
theorem ScopeTree.not_opensAll_aside :
    (asideFiles.filter fun item => ScopeTree.OpensAll ⟨1, 64⟩ [item]) = [] := by
  decide

end StoreLint
