import StoreLint.Proofs.Scope.Reshape
import StoreLint.Proofs.Tree.Shift
import StoreLint.Store.Children

/-!
# Scopes of shifted trees

The scope tree of a shifted module is that of the module itself with all positions
shifted.  A shifted position lies in the same scope as before, so identifiers are
resolved to the same declarations and sections are followed to the same entries.
-/

namespace StoreLint

/-- What a name is declared as, with its value moved `offset` bytes further on. -/
def DefinitionKind.shift (offset : Nat) : DefinitionKind → DefinitionKind
  | .binding init => .binding (init.map (Node.shift offset))
  | .functionName function => .functionName (function.shift offset)
  | kind => kind

/-- The change that moves everything in a scope tree `offset` bytes further on. -/
def Reshape.shift (offset : Nat) : Reshape :=
  { span := Span.shift offset, kind := DefinitionKind.shift offset }

/-- The node is the other one moved `offset` bytes further on. -/
def Node.ShiftOf (offset : Nat) (node other : Node) : Prop := other = node.shift offset

variable (offset : Nat)

theorem Node.shiftOf_map (nodes : List Node) :
    List.Forall₂ (ShiftOf offset) nodes (nodes.map (shift offset)) := by
  induction nodes with
  | nil => exact .nil
  | cons node nodes induction => exact .cons rfl induction

theorem Definition.reshape_of (id : Identifier) (kind : DefinitionKind) :
    (Definition.of id kind).reshape (.shift offset) =
      .of (id.shift offset) (kind.shift offset) := rfl

namespace Node

theorem opening?_shift (node : Node) : (node.shift offset).opening? = node.opening? := by
  cases node <;> simp [opening?]

theorem ownDefinitions_shift (node : Node) :
    (node.shift offset).ownDefinitions =
      node.ownDefinitions.map (Definition.reshape (.shift offset)) := by
  cases node with
  | functionLike span form own params body types =>
      cases own <;> simp [ownDefinitions, boundNamesList_shift, Definition.reshape_of,
        DefinitionKind.shift, Function.comp_def]
  | classLike span own members superclass =>
      cases own <;> simp [ownDefinitions, Definition.reshape_of, DefinitionKind.shift]
  | setter span key receiver param body =>
      simp [ownDefinitions, boundNames_shift, Definition.reshape_of, DefinitionKind.shift]
  | catches span param body =>
      cases param <;>
        simp [ownDefinitions, boundNames_shift, Definition.reshape_of, DefinitionKind.shift]
  | _ => simp [ownDefinitions]

theorem declaratorDefinitions_shift (declarator : Node) :
    (declarator.shift offset).declaratorDefinitions =
      declarator.declaratorDefinitions.map (Definition.reshape (.shift offset)) := by
  cases declarator with
  | declarator target init =>
      have names := boundNames_shift offset target.untyped
      simp only [shift, declaratorDefinitions, untyped_shift]
      generalize target.untyped = pattern at names ⊢
      cases pattern <;>
        simp_all [Definition.reshape_of, DefinitionKind.shift]
  | _ => simp [declaratorDefinitions]

theorem ofDeclared_shift (value : Node) :
    DefinitionKind.ofDeclared (value.shift offset) =
      (DefinitionKind.ofDeclared value).shift offset := by
  cases value <;> simp [DefinitionKind.ofDeclared, DefinitionKind.shift]

theorem outerDefinitions_shift (node : Node) :
    (node.shift offset).outerDefinitions =
      node.outerDefinitions.map (Definition.reshape (.shift offset)) := by
  cases node with
  | variableList span kind declarators =>
      simp [outerDefinitions, List.flatMap_map, List.map_flatMap, declaratorDefinitions_shift]
  | declaration id value => simp [outerDefinitions, Definition.reshape_of, ofDeclared_shift]
  | imports span locals source attributes =>
      simp [outerDefinitions, Definition.reshape_of, DefinitionKind.shift]
  | _ => simp [outerDefinitions]

end Node

namespace ScopeTree

/-- A scope tree moved `offset` bytes further on. -/
def shift (tree : ScopeTree) : ScopeTree := tree.reshape (.shift offset)

theorem bindingScope_shift (node : Node) (tree : ScopeTree) (current : Nat) :
    (tree.shift offset).bindingScope current (node.shift offset) =
      tree.bindingScope current node := by
  cases node with
  | variableList span kind declarators =>
      cases kind <;> simp [bindingScope, shift, varScope_reshape]
  | _ => simp [bindingScope]

theorem matches_shift (node : Node) :
    (Reshape.shift offset).Matches (Node.ShiftOf offset) node (node.shift offset) where
  opening := Node.opening?_shift offset node
  span := fun _ => Node.span_shift offset node
  own := fun _ => Node.ownDefinitions_shift offset node
  outer := Node.outerDefinitions_shift offset node
  binding := bindingScope_shift offset node
  heads := by
    rw [Node.heads_shift]
    exact Node.shiftOf_map offset node.heads
  inner := by
    rw [Node.inner_shift]
    exact Node.shiftOf_map offset node.inner

theorem carries_shift (node : Node) :
    (Reshape.shift offset).Carries node (node.shift offset) := by
  induction node using Node.inductionOnParts .scopes with
  | step node induction =>
      apply (matches_shift offset node).carries
      rintro part isPart form rfl
      exact induction part isPart

theorem build_shift (span : Span) (items : List Node) :
    build (span.shift offset) (items.map (Node.shift offset)) =
      (build span items).shift offset := by
  have each : ∀ item ∈ items, ∀ other, Node.ShiftOf offset item other →
      (Reshape.shift offset).Carries item other := by
    rintro item _ other rfl
    exact carries_shift offset item
  exact build_reshape (Node.shiftOf_map offset items) each span

theorem scopeAt_shift (tree : ScopeTree) (position : Nat) :
    (tree.shift offset).scopeAt (position + offset) = tree.scopeAt position :=
  scopeAt_reshape (.shift offset) tree fun span => span.contains_shift offset position

theorem resolve_shift (tree : ScopeTree) (id : Identifier) :
    (tree.shift offset).resolve (id.shift offset) =
      (tree.resolve id).map (Definition.reshape (.shift offset)) :=
  resolve_reshape (.shift offset) tree rfl (scopeAt_shift offset tree id.span.lo)

end ScopeTree

namespace Definition

theorem value?_shift (definition : Definition) :
    (definition.reshape (.shift offset)).value? =
      definition.value?.map (Option.map (Node.shift offset)) := by
  obtain ⟨name, kind, nameSpan⟩ := definition
  cases kind with
  | functionName function =>
      simp only [value?, Definition.reshape, Reshape.shift, DefinitionKind.shift,
        Node.functionBody_shift, Node.firstReturnList_shift]
      cases Node.firstReturnList function.functionBody with
      | none => rfl
      | some value => rfl
  | _ => rfl

theorem function?_shift (definition : Definition) :
    (definition.reshape (.shift offset)).function? =
      definition.function?.map (Node.shift offset) := by
  obtain ⟨name, kind, nameSpan⟩ := definition
  cases kind with
  | binding init =>
      cases init with
      | none => rfl
      | some value => exact Node.asFunction?_shift offset value
  | _ => rfl

end Definition

namespace ScopeTree

theorem entriesOfBinding_shift (tree : ScopeTree) (id : Identifier) :
    (tree.shift offset).entriesOfBinding (id.shift offset) =
      (tree.entriesOfBinding id).map (List.map (Node.shift offset)) := by
  simp only [entriesOfBinding, resolve_shift]
  rcases tree.resolve id with error | definition
  · rfl
  · have value := definition.value?_shift offset
    simp only [Except.map, bind, Except.bind] at value ⊢
    rw [value]
    rcases definition.value? with error | _ | value
    · rfl
    · rfl
    · simp [Node.entriesOfValue_shift, pure, Except.pure]

theorem childEntries_shift (tree : ScopeTree) (entry : Node) :
    (tree.shift offset).childEntries (entry.shift offset) =
      (tree.childEntries entry).map (List.map (Node.shift offset)) := by
  cases entry with
  | keyValue key value =>
      simp only [childEntries, Node.shift, Node.unwrap_shift]
      cases value.unwrap with
      | objectLiteral span entries => simp [Node.properEntries_shift, Except.map]
      | identifier id => simp [entriesOfBinding_shift]
      | _ => simp [Except.map]
  | shorthand id => simp [childEntries, entriesOfBinding_shift]
  | _ => simp [childEntries, Except.map]

theorem functionOfBinding_shift (tree : ScopeTree) (id : Identifier) :
    (tree.shift offset).functionOfBinding (id.shift offset) =
      (tree.functionOfBinding id).map (Option.map (Node.shift offset)) := by
  simp only [functionOfBinding, resolve_shift]
  rcases tree.resolve id with error | definition
  · rfl
  · exact congrArg Except.ok (definition.function?_shift offset)

theorem functionOfEntry_shift (tree : ScopeTree) (entry : Node) :
    (tree.shift offset).functionOfEntry (entry.shift offset) =
      (tree.functionOfEntry entry).map (Option.map (Node.shift offset)) := by
  cases entry with
  | keyValue key value =>
      simp only [functionOfEntry, Node.shift, Node.unwrap_shift, Node.asFunction?_shift]
      cases value.unwrap with
      | identifier id => simp [functionOfBinding_shift]
      | _ => simp [Except.map]
  | shorthand id => simp [functionOfEntry, functionOfBinding_shift]
  | _ => simp [functionOfEntry, Except.map]

end ScopeTree

end StoreLint
