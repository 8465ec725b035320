import StoreLint.Proofs.Scope.Reshape
import StoreLint.Proofs.Tree.Bare
import StoreLint.Store.Children

/-!
# Scopes of bare trees

The scope tree of a bare module is that of the module itself, with the values of the
declarations in bare form.  Names are therefore resolved to the same declarations, and
what these stand for differs in wrappers and in the spelling of keys alone.
-/

namespace StoreLint

/-- What a name is declared as, with its value in bare form. -/
def DefinitionKind.bare : DefinitionKind → DefinitionKind
  | .binding init => .binding (init.map fun value => value.bare .free)
  | .functionName function => .functionName (function.bare .kept)
  | kind => kind

/-- A declaration with its value in bare form. -/
def Definition.bare (definition : Definition) : Definition :=
  { definition with kind := definition.kind.bare }

/-- A variable with the values of its declarations in bare form. -/
def Variable.bare (found : Variable) : Variable :=
  { found with definitions := found.definitions.map Definition.bare }

/-- A scope with the values of its declarations in bare form. -/
def Scope.bare (scope : Scope) : Scope :=
  { scope with declared := scope.declared.map Variable.bare }

/-- The change of a scope tree that puts the values of its declarations in bare form. -/
def Reshape.bare : Reshape := { span := id, kind := DefinitionKind.bare }

namespace Node

theorem opening?_bare {node : Node} (notWrapped : node.NotWrapped) (role : Role) :
    (node.bare role).opening? = node.opening? := by
  cases node with
  | wrapped span wrapper inner types => exact absurd rfl (notWrapped _ _ _ _)
  | _ => simp [bare, opening?]

theorem span_bare_of_opening {node : Node} {kind : ScopeKind}
    (opens : node.opening? = some kind) (role : Role) : (node.bare role).span = node.span := by
  cases node <;> simp [opening?] at opens <;> simp [bare, span]

theorem ownDefinitions_bare {node : Node} {kind : ScopeKind}
    (opens : node.opening? = some kind) (role : Role) :
    (node.bare role).ownDefinitions = node.ownDefinitions.map Definition.bare := by
  cases node with
  | functionLike span form own params body types =>
      cases own <;> simp [bare, ownDefinitions, boundNamesList_bare, Definition.of,
        Definition.bare, DefinitionKind.bare, Function.comp_def]
  | classLike span own members heritage =>
      cases own <;> simp [bare, ownDefinitions, Definition.of, Definition.bare,
        DefinitionKind.bare]
  | setter span key receiver param body =>
      simp [bare, ownDefinitions, boundNames_bare, Definition.of, Definition.bare,
        DefinitionKind.bare]
  | catches span param body =>
      cases param <;> simp [bare, ownDefinitions, boundNames_bare, Definition.of,
        Definition.bare, DefinitionKind.bare]
  | _ => simp [opening?] at opens <;> simp [bare, ownDefinitions]

theorem declaratorDefinitions_bare (declarator : Node) :
    (declarator.bare .entry).declaratorDefinitions =
      declarator.declaratorDefinitions.map Definition.bare := by
  cases declarator with
  | declarator target init =>
      have names := boundNames_bare target.untyped
      simp only [bare, declaratorDefinitions, untyped_bare]
      generalize target.untyped = pattern at names ⊢
      cases pattern <;> simp_all [bare, Definition.of, Definition.bare,
        DefinitionKind.bare, Role.part]
  | _ => simp [bare, declaratorDefinitions]

theorem ofDeclared_bare (value : Node) :
    DefinitionKind.ofDeclared (value.bare .kept) = (DefinitionKind.ofDeclared value).bare := by
  cases value <;> simp [bare, DefinitionKind.ofDeclared, DefinitionKind.bare]

theorem outerDefinitions_bare {node : Node} (notWrapped : node.NotWrapped) (role : Role) :
    (node.bare role).outerDefinitions = node.outerDefinitions.map Definition.bare := by
  cases node with
  | wrapped span wrapper inner types => exact absurd rfl (notWrapped _ _ _ _)
  | variableList span kind declarators =>
      simp [bare, outerDefinitions, List.flatMap_map, List.map_flatMap,
        declaratorDefinitions_bare]
  | declaration id value =>
      simp [bare, outerDefinitions, Definition.of, Definition.bare, ofDeclared_bare]
  | imports span locals source attributes =>
      simp [bare, outerDefinitions, Definition.of, Definition.bare, DefinitionKind.bare]
  | _ => simp [bare, outerDefinitions]

end Node

namespace ScopeTree

/-- A scope tree with the values of its declarations in bare form. -/
def bare (tree : ScopeTree) : ScopeTree := { scopes := tree.scopes.map Scope.bare }

theorem bare_eq_reshape (tree : ScopeTree) : tree.bare = tree.reshape .bare := rfl

theorem bindingScope_bare {node : Node} (notWrapped : node.NotWrapped) (role : Node.Role)
    (tree : ScopeTree) (current : Nat) :
    tree.bare.bindingScope current (node.bare role) = tree.bindingScope current node := by
  cases node with
  | wrapped span wrapper inner types => exact absurd rfl (notWrapped _ _ _ _)
  | variableList span kind declarators =>
      cases kind <;> simp [Node.bare, bindingScope, bare_eq_reshape, varScope_reshape]
  | _ => simp [Node.bare, bindingScope]

theorem matches_bare {node : Node} (notWrapped : node.NotWrapped) (role : Node.Role) :
    Reshape.bare.Matches Node.BareOf node (node.bare role) where
  opening := Node.opening?_bare notWrapped role
  span := by
    intro isOpened
    obtain ⟨kind, opens⟩ := Option.ne_none_iff_exists'.mp isOpened
    exact Node.span_bare_of_opening opens role
  own := by
    intro isOpened
    obtain ⟨kind, opens⟩ := Option.ne_none_iff_exists'.mp isOpened
    exact Node.ownDefinitions_bare opens role
  outer := Node.outerDefinitions_bare notWrapped role
  binding := bindingScope_bare notWrapped role
  heads := Node.heads_bare notWrapped role
  inner := Node.inner_bare notWrapped role

theorem carries_bareOf {node form : Node} (bareOf : Node.BareOf node form)
    (plain : ∀ role, Reshape.bare.Carries node (node.bare role)) :
    Reshape.bare.Carries node form := by
  cases bareOf with
  | plain role => exact plain role
  | ranged span role =>
      intro tree current
      rw [visit, visitList]
      exact plain role tree current

theorem visitList_of_forall {nodes : List Node} {current : Nat}
    (each : ∀ node ∈ nodes, ∀ tree : ScopeTree, tree.visit current node = tree)
    (tree : ScopeTree) : tree.visitList current nodes = tree := by
  induction nodes with
  | nil => rw [visitList]
  | cons node nodes induction =>
      rw [visitList, each node (by simp)]
      exact induction fun other isOther => each other (List.mem_cons_of_mem _ isOther)

/-- Types without expressions open no scope and declare nothing. -/
theorem visitList_of_arePlain {types : List Node} (plain : Node.arePlain types = true)
    (tree : ScopeTree) (current : Nat) : tree.visitList current types = tree := by
  have each : ∀ node : Node, (∀ inner ∈ Node.nodesOf .scopes [node], inner.isTypeForm = true) →
      ∀ tree : ScopeTree, tree.visit current node = tree := by
    intro node
    induction node using Node.inductionOnParts .scopes with
    | step node induction =>
        intro forms tree
        have isForm := forms node (Node.mem_nodesOf_of_mem (by simp))
        have opensNothing : node.opening? = none := by
          cases node <;> first | rfl | cases isForm
        have declaresNothing : node.outerDefinitions = [] := by
          cases node <;> first | rfl | cases isForm
        rw [visit_of_not_opening opensNothing, declaresNothing]
        exact visitList_of_forall (fun part isPart tree =>
          induction part isPart (fun inner isInner =>
            forms inner (Node.nodesOf_child_subset isPart isInner)) tree) _
  refine visitList_of_forall (fun type isType tree => each type ?_ tree) tree
  intro inner isInner
  have isNode := Node.nodesOf_singleton_subset isType (Node.nodesOf_subset_whole _ isInner)
  exact List.all_eq_true.mp plain inner isNode

/-- The bare form of a node contributes the same to the scope tree, in bare form. -/
theorem carries_bare (node : Node) (role : Node.Role) :
    Reshape.bare.Carries node (node.bare role) := by
  induction node using Node.inductionOnParts .scopes generalizing role with
  | step node induction =>
      obtain ⟨span, wrapper, inner, types, rfl⟩ | notWrapped := Node.wrapped_or_notWrapped node
      · intro tree current
        have below := induction inner (by simp [Node.parts]) .free tree current
        rw [Node.bare, visit]
        split
        next isFree => rw [visitList_of_arePlain isFree.2.2, below]
        next =>
          rw [visit, below, Node.bareList_eq_map]
          exact visitList_reshape (Node.bareOf_map types .free)
            (fun type isType form bareOf => carries_bareOf bareOf
              (induction type (by simp [Node.parts, isType]))) _ _
      · apply (matches_bare notWrapped role).carries
        intro part isPart form bareOf
        exact carries_bareOf bareOf (induction part isPart)

theorem build_bare (span : Span) (items : List Node) :
    build span (items.map fun item => item.bare .free) = (build span items).bare := by
  have each : ∀ item ∈ items, ∀ form, Node.BareOf item form → Reshape.bare.Carries item form :=
    fun item _ form bareOf => carries_bareOf bareOf (carries_bare item)
  exact build_reshape (Node.bareOf_map items .free) each span

/-- A name is resolved to the same declaration, with its value in bare form. -/
theorem resolve_bare (tree : ScopeTree) (id : Identifier) :
    tree.bare.resolve id = (tree.resolve id).map Definition.bare :=
  resolve_reshape .bare tree rfl (scopeAt_reshape .bare tree fun _ => rfl)

end ScopeTree

namespace Definition

theorem value?_bare (definition : Definition) :
    definition.bare.value? =
      definition.value?.map fun value => value.map fun value => value.bare .free := by
  obtain ⟨name, kind, nameSpan⟩ := definition
  cases kind with
  | functionName function =>
      simp only [value?, Definition.bare, DefinitionKind.bare, Node.functionBody_bare,
        Node.firstReturnList_bare, Node.bareReturn]
      cases Node.firstReturnList function.functionBody with
      | none => rfl
      | some value => rfl
  | _ => rfl

theorem function?_bare (definition : Definition) :
    definition.bare.function? =
      definition.function?.map fun function => function.bare .kept := by
  obtain ⟨name, kind, nameSpan⟩ := definition
  cases kind with
  | binding init =>
      cases init with
      | none => rfl
      | some value => exact Node.asFunction?_bare value
  | _ => rfl

end Definition

namespace ScopeTree

theorem entriesOfBinding_bare (tree : ScopeTree) (id : Identifier) :
    tree.bare.entriesOfBinding id =
      (tree.entriesOfBinding id).map fun entries => entries.map fun entry => entry.bare .entry := by
  simp only [entriesOfBinding, resolve_bare]
  rcases tree.resolve id with error | definition
  · rfl
  · have value := definition.value?_bare
    simp only [Except.map, bind, Except.bind] at value ⊢
    rw [value]
    rcases definition.value? with error | _ | value
    · rfl
    · rfl
    · simp [Node.entriesOfValue_bare, pure, Except.pure]

theorem childEntries_bare (tree : ScopeTree) (entry : Node) :
    tree.bare.childEntries (entry.bare .entry) =
      (tree.childEntries entry).map fun entries => entries.map fun entry => entry.bare .entry := by
  cases entry with
  | keyValue key value =>
      have notWrapped := Node.notWrapped_unwrap value
      have unwrapped := Node.unwrap_bare value
      simp only [childEntries, Node.bare, reduceCtorEq, false_and, if_false, Node.Role.part,
        unwrapped]
      generalize value.unwrap = inner at notWrapped
      cases inner with
      | wrapped span wrapper inside types => exact absurd rfl (notWrapped _ _ _ _)
      | objectLiteral span entries =>
          simp [Node.bare, Node.properEntries_bare, Except.map]
      | identifier id => simp [Node.bare, entriesOfBinding_bare]
      | _ => simp [Node.bare, Except.map]
  | shorthand id => simp [Node.bare, childEntries, entriesOfBinding_bare]
  | _ => simp [Node.bare, childEntries, Except.map]

theorem functionOfBinding_bare (tree : ScopeTree) (id : Identifier) :
    tree.bare.functionOfBinding id =
      (tree.functionOfBinding id).map fun found => found.map fun function =>
        function.bare .kept := by
  simp only [functionOfBinding, resolve_bare]
  rcases tree.resolve id with error | definition
  · rfl
  · exact congrArg Except.ok definition.function?_bare

theorem functionOfEntry_bare (tree : ScopeTree) (entry : Node) :
    tree.bare.functionOfEntry (entry.bare .entry) =
      (tree.functionOfEntry entry).map fun found => found.map fun function =>
        function.bare .kept := by
  cases entry with
  | keyValue key value =>
      have notWrapped := Node.notWrapped_unwrap value
      have unwrapped := Node.unwrap_bare value
      have function := Node.asFunction?_bare value
      simp only [functionOfEntry, Node.bare, reduceCtorEq, false_and, if_false, Node.Role.part,
        unwrapped, function]
      generalize value.unwrap = inner at notWrapped
      cases inner with
      | wrapped span wrapper inside types => exact absurd rfl (notWrapped _ _ _ _)
      | identifier id => simp [Node.bare, functionOfBinding_bare]
      | _ => simp [Node.bare, Except.map]
  | shorthand id => simp [Node.bare, functionOfEntry, functionOfBinding_bare]
  | _ => simp [Node.bare, functionOfEntry, Except.map]

end ScopeTree

end StoreLint
