import StoreLint.Proofs.Scope.Compositional
import StoreLint.Proofs.Tree.Bare

/-!
# Lookup is lexical

In a tree that was read from a text, a scope lies inside the scope around it, and the
names that are declared in a scope stand inside the scope.  The module scope is apart
from this: it holds what reaches it from anywhere.  So a name that is found from a
position in any other scope is declared in a part of the text that contains both the
position and the declarations.
-/

namespace StoreLint

namespace Node

/-- The names that a node has beside its parts. -/
def ownNames : Node → List Identifier
  | .functionLike _ _ own _ _ _ => own.toList
  | .classLike _ own _ _ => own.toList
  | .initialized _ id _ => [id]
  | .declaration id _ => [id]
  | _ => []

/-- Whether the parts and the names of a node lie inside its range. -/
structure Covers (node : Node) : Prop where
  parts : node.Encloses
  names : ∀ id ∈ node.ownNames, id.span.Within node.span

instance (node : Node) : Decidable node.Covers :=
  decidable_of_iff (node.Encloses ∧ ∀ id ∈ node.ownNames, id.span.Within node.span)
    ⟨fun both => ⟨both.1, both.2⟩, fun covers => ⟨covers.parts, covers.names⟩⟩

/-- What a pattern or a property of a pattern binds stands inside it. -/
theorem boundNames_within (node : Node) (covers : ∀ inner ∈ nodesOf .scopes [node], inner.Covers) :
    (∀ id ∈ node.boundNames, id.span.Within node.span) ∧
      ∀ id ∈ node.propertyNames, id.span.Within node.span := by
  induction node using inductionOnParts .scopes with
  | step node induction =>
      have own := covers node (mem_nodesOf_of_mem (by simp))
      have ofBound : ∀ child ∈ node.parts .scopes, ∀ id ∈ child.boundNames,
          id.span.Within node.span := by
        intro child isChild id isBound
        have below := (induction child isChild fun inner member =>
          covers inner (nodesOf_child_subset isChild member)).1 id isBound
        exact below.trans (own.parts.within isChild)
      have ofProperty : ∀ child ∈ node.parts .scopes, ∀ id ∈ child.propertyNames,
          id.span.Within node.span := by
        intro child isChild id isBound
        have below := (induction child isChild fun inner member =>
          covers inner (nodesOf_child_subset isChild member)).2 id isBound
        exact below.trans (own.parts.within isChild)
      cases node with
      | identifier id => simp [boundNames, propertyNames, span, Span.Within.refl]
      | arrayPattern span elements =>
          constructor
          · intro id isBound
            rw [boundNames, boundNamesList_eq_flatMap] at isBound
            obtain ⟨element, isElement, isBound⟩ := List.mem_flatMap.mp isBound
            exact ofBound element isElement id isBound
          · simp [propertyNames]
      | objectPattern span properties =>
          constructor
          · intro id isBound
            rw [boundNames, boundNamesProperties_eq_flatMap] at isBound
            obtain ⟨property, isProperty, isBound⟩ := List.mem_flatMap.mp isBound
            exact ofProperty property isProperty id isBound
          · simp [propertyNames]
      | restPattern span inner =>
          have below := ofBound inner (by simp [parts])
          constructor
          · simpa [boundNames] using below
          · simpa [propertyNames] using below
      | defaulted span target value =>
          have below := ofBound target (by simp [parts])
          constructor
          · simpa [boundNames] using below
          · simp [propertyNames]
      | annotated span target type =>
          have below := ofBound target (by simp [parts])
          constructor
          · simpa [boundNames] using below
          · simp [propertyNames]
      | keyValue key value =>
          have below := ofBound value (by simp [parts])
          constructor
          · simp [boundNames]
          · simpa [propertyNames] using below
      | shorthand id => simp [boundNames, propertyNames, span, Span.Within.refl]
      | initialized span id value =>
          constructor
          · simp [boundNames]
          · exact own.names
      | _ => simp [boundNames, propertyNames]

theorem boundNames_within_parent {node part : Node}
    (covers : ∀ inner ∈ nodesOf .scopes [node], inner.Covers) (isPart : part ∈ node.parts .scopes)
    {id : Identifier} (isBound : id ∈ part.boundNames) : id.span.Within node.span := by
  have below := (boundNames_within part fun inner member =>
    covers inner (nodesOf_child_subset isPart member)).1 id isBound
  exact below.trans ((covers node (mem_nodesOf_of_mem (by simp))).parts.within isPart)

theorem declaratorDefinitions_within {node : Node}
    (covers : ∀ inner ∈ nodesOf .scopes [node], inner.Covers) {definition : Definition}
    (member : definition ∈ node.declaratorDefinitions) :
    definition.nameSpan.Within node.span := by
  fun_cases declaratorDefinitions node with
  | case1 target init id isName =>
      have isBound : id ∈ target.boundNames := by
        rw [← boundNames_untyped, isName]
        simp [boundNames]
      simp only [declaratorDefinitions, isName, List.mem_singleton] at member
      rw [member]
      exact boundNames_within_parent covers (show target ∈ _ by simp [parts]) isBound
  | case2 target init notName =>
      simp only [declaratorDefinitions, List.mem_map, boundNames_untyped] at member
      obtain ⟨id, isBound, rfl⟩ := member
      exact boundNames_within_parent covers (show target ∈ _ by simp [parts]) isBound
  | case3 node notDeclarator => simp [declaratorDefinitions] at member

/-- The names that a node declares stand inside it, apart from imports. -/
theorem bindings_within {node : Node} (covers : ∀ inner ∈ nodesOf .scopes [node], inner.Covers)
    (notImported : node.reach ≠ .module) {definition : Definition}
    (member : definition ∈ node.bindings) : definition.nameSpan.Within node.span := by
  have own := covers node (mem_nodesOf_of_mem (by simp))
  cases node with
  | functionLike span form name params body types =>
      simp only [bindings, ownDefinitions, outerDefinitions, List.append_nil, List.mem_append,
        List.mem_map, boundNamesList_eq_flatMap, List.mem_flatMap] at member
      rcases member with ⟨id, isName, rfl⟩ | ⟨id, ⟨param, isParam, isBound⟩, rfl⟩
      · exact own.names id isName
      · exact boundNames_within_parent covers (by simp [parts, isParam]) isBound
  | classLike span name members heritage =>
      simp only [bindings, ownDefinitions, outerDefinitions, List.append_nil,
        List.mem_map] at member
      obtain ⟨id, isName, rfl⟩ := member
      exact own.names id isName
  | setter span key receiver param body =>
      simp only [bindings, ownDefinitions, outerDefinitions, List.append_nil,
        List.mem_map] at member
      obtain ⟨id, isBound, rfl⟩ := member
      exact boundNames_within_parent covers (show param ∈ _ by simp [parts]) isBound
  | catches span param body =>
      cases param with
      | none => simp [bindings, ownDefinitions, outerDefinitions] at member
      | some param =>
          simp only [bindings, ownDefinitions, outerDefinitions, List.append_nil,
            Option.map_some, Option.getD_some, List.mem_map] at member
          obtain ⟨id, isBound, rfl⟩ := member
          exact boundNames_within_parent covers (show param ∈ _ by simp [parts]) isBound
  | variableList span kind declarators =>
      simp only [bindings, ownDefinitions, outerDefinitions, List.nil_append,
        List.mem_flatMap] at member
      obtain ⟨declarator, isDeclarator, member⟩ := member
      have isPart : declarator ∈ (Node.variableList span kind declarators).parts .scopes :=
        isDeclarator
      have below := declaratorDefinitions_within
        (fun inner isInner => covers inner (nodesOf_child_subset isPart isInner)) member
      exact below.trans (own.parts.within isPart)
  | declaration id value =>
      simp only [bindings, ownDefinitions, outerDefinitions, List.nil_append,
        List.mem_singleton] at member
      rw [member]
      exact own.names id (by simp [ownNames])
  | imports span locals source attributes => exact absurd rfl notImported
  | _ => simp [bindings, ownDefinitions, outerDefinitions] at member

theorem escaping_within (node : Node) (covers : ∀ inner ∈ nodesOf .scopes [node], inner.Covers)
    {definition : Reach × Definition} (member : definition ∈ node.escaping)
    (notImported : definition.1 ≠ .module) : definition.2.nameSpan.Within node.span := by
  induction node using inductionOnParts .scopes with
  | step node induction =>
      cases mem_escaping_cases member with
      | inl isOwn =>
          rw [isOwn.2] at notImported
          exact bindings_within covers notImported (List.mem_append_right _ isOwn.1)
      | inr inParts =>
          obtain ⟨part, isPart, inPart⟩ := inParts
          have below := induction part isPart
            (fun inner isInner => covers inner (nodesOf_child_subset isPart isInner)) inPart
          exact below.trans ((covers node (mem_nodesOf_of_mem (by simp))).parts.within isPart)

/-- What the scope of a node holds stands inside the node. -/
theorem held_within {node : Node} {kind : ScopeKind} (opens : node.opening? = some kind)
    (covers : ∀ inner ∈ nodesOf .scopes [node], inner.Covers) {definition : Definition}
    (member : definition ∈ node.held kind) : definition.nameSpan.Within node.span := by
  rw [held, List.mem_append, List.mem_map] at member
  rcases member with isOwn | ⟨declared, isHeld, rfl⟩
  · have notImported : node.reach ≠ .module := by
      cases node <;> simp [opening?] at opens <;> simp [reach]
    exact bindings_within covers notImported (List.mem_append_left _ isOwn)
  · rw [List.mem_filter] at isHeld
    obtain ⟨inParts, ends⟩ := isHeld
    obtain ⟨part, isPart, inPart⟩ := List.mem_flatMap.mp inParts
    have isChild := mem_parts_of_mem_inner isPart
    have notImported : declared.1 ≠ .module := by
      intro imported
      simp [imported, Reach.endsAt] at ends
    have below := escaping_within part
      (fun inner isInner => covers inner (nodesOf_child_subset isChild isInner)) inPart notImported
    exact below.trans ((covers node (mem_nodesOf_of_mem (by simp))).parts.within isChild)

theorem exists_opening_of_mem {nodes : List Node} {kind : ScopeKind} {span : Span}
    {declared : List Variable}
    (member : (kind, span, declared) ∈ (nodesOf .scopes nodes).filterMap openedScope?) :
    ∃ node ∈ nodesOf .scopes nodes, node.opening? = some kind ∧ span = node.span ∧
      declared = Variable.ofDefinitions (node.held kind) := by
  obtain ⟨node, isNode, isOpened⟩ := List.mem_filterMap.mp member
  rw [openedScope?, Option.map_eq_some_iff] at isOpened
  obtain ⟨_, opens, same⟩ := isOpened
  cases same
  exact ⟨node, isNode, opens, rfl, rfl⟩

end Node

theorem Variable.mem_ofDefinitions_iff {definitions : List Definition} {definition : Definition} :
    (∃ declared ∈ ofDefinitions definitions, definition ∈ declared.definitions) ↔
      definition ∈ definitions := by
  rw [← List.mem_flatMap]
  exact (perm_ofDefinitions definitions).mem_iff

namespace ScopeTree

variable {span : Span} {items : List Node}

/-- Every scope but the module scope is the scope of a node and holds what the scope of that node
holds. -/
theorem exists_opening_of_getElem? {index : Nat} {scope : Scope} (notRoot : index ≠ root)
    (found : (build span items).scopes[index]? = some scope) :
    ∃ node ∈ Node.nodesOf .scopes items, node.opening? = some scope.kind ∧
      scope.span = node.span ∧ scope.declared = Variable.ofDefinitions (node.held scope.kind) := by
  obtain ⟨offset, rfl⟩ := Nat.exists_eq_succ_of_ne_zero notRoot
  rw [← Array.getElem?_toList, ← List.getElem?_tail] at found
  apply Node.exists_opening_of_mem
  apply (perm_openedScopes_build span items).mem_iff.mp
  exact List.mem_map_of_mem (List.mem_of_getElem? found)

/-- The names that are declared in a scope stand inside it, unless it is the module scope. -/
theorem definitions_within (covers : ∀ node ∈ Node.nodesOf .scopes items, node.Covers) {index : Nat}
    {scope : Scope} (notRoot : index ≠ root)
    (found : (build span items).scopes[index]? = some scope) {declared : Variable}
    (isDeclared : declared ∈ scope.declared) {definition : Definition}
    (member : definition ∈ declared.definitions) : definition.nameSpan.Within scope.span := by
  obtain ⟨node, isNode, opens, spanEq, declaredEq⟩ := exists_opening_of_getElem? notRoot found
  have isHeld : definition ∈ node.held scope.kind :=
    Variable.mem_ofDefinitions_iff.mp ⟨declared, declaredEq ▸ isDeclared, member⟩
  rw [spanEq]
  apply Node.held_within opens _ isHeld
  intro inner isInner
  exact covers inner (Node.nodesOf_subset_of_mem isNode isInner)

theorem getElem?_of_findVariable {tree : ScopeTree} (wellFormed : tree.WellFormed) {index : Nat}
    (inside : index < tree.size) {name : String} {found : Variable}
    (isFound : tree.findVariable index name = some found) :
    ∃ inner scope outer, tree.ancestors index = inner ++ scope :: outer ∧
      (∀ nearer ∈ inner, nearer.find? name = none) ∧ scope.find? name = some found ∧
      tree.scopes[scope.id]? = some scope := by
  obtain ⟨inner, scope, outer, chain, holds, notBefore⟩ := List.findSome?_eq_some_iff.mp isFound
  refine ⟨inner, scope, outer, chain, notBefore, holds, ?_⟩
  apply wellFormed.getElem?_of_mem_ancestors inside
  rw [chain]
  simp

/-- Scopes lie inside each other and around the names they hold, the module scope apart.  So a
lookup that ends in another scope ends in a part of the text with the position and with all
declarations of the name that was found. -/
structure Lexical (tree : ScopeTree) : Prop where
  nested : ∀ {index parent : Nat} {scope around : Scope}, tree.scopes[index]? = some scope →
    scope.parent = some parent → parent ≠ root → tree.scopes[parent]? = some around →
      scope.span.Within around.span
  names : ∀ {index : Nat} {scope : Scope}, index ≠ root → tree.scopes[index]? = some scope →
    ∀ declared ∈ scope.declared, ∀ definition ∈ declared.definitions,
      definition.nameSpan.Within scope.span
  lookup : ∀ {position : Nat} {name : String} {found : Variable},
    tree.findVariable (tree.scopeAt position) name = some found →
      ∃ inner scope outer, tree.ancestors (tree.scopeAt position) = inner ++ scope :: outer ∧
        (∀ nearer ∈ inner, nearer.find? name = none) ∧ scope.find? name = some found ∧
        (scope.id ≠ root → scope.span.contains position = true ∧
          ∀ definition ∈ found.definitions, definition.nameSpan.Within scope.span)

theorem lexical_build (covers : ∀ node ∈ Node.nodesOf .scopes items, node.Covers) :
    (build span items).Lexical := by
  have encloses : ∀ node ∈ Node.nodesOf .scopes items, node.Encloses :=
    fun node isNode => (covers node isNode).parts
  have wellFormed := (openAt_build span items).wellFormed
  constructor
  · intro index parent scope around found parentEq notRoot atParent
    have isOuter : parent ∈ (build span items).ancestorIds index := by
      apply (wellFormed.mem_ancestorIds_iff found).mpr
      exact .inr ⟨parent, parentEq, wellFormed.mem_ancestorIds_self (lt_size_of_getElem? atParent)⟩
    exact within_of_mem_ancestorIds encloses isOuter notRoot found atParent
  · intro index scope notRoot found declared isDeclared definition member
    exact definitions_within covers notRoot found isDeclared member
  · intro position name found isFound
    have inside := wellFormed.scopeAt_lt_size position
    obtain ⟨inner, scope, outer, chain, notBefore, holds, atScope⟩ :=
      getElem?_of_findVariable wellFormed inside isFound
    refine ⟨inner, scope, outer, chain, notBefore, holds, ?_⟩
    intro notRoot
    constructor
    · have isOuter : scope.id ∈ (build span items).ancestorIds
          ((build span items).scopeAt position) := by
        rw [← wellFormed.mem_ancestors_iff inside atScope, chain]
        simp
      exact contains_of_mem_ancestorIds_scopeAt encloses isOuter notRoot atScope
    · intro definition member
      exact definitions_within covers notRoot atScope (List.mem_of_find?_eq_some holds) member

/-- `(function g(p) { { var v; let w; } })` with its first character at position 1. -/
def hoistingBlock : List Node :=
  [.wrapped ⟨1, 38⟩ .parentheses
    (.functionLike ⟨2, 37⟩ .ordinary (some ⟨"g", ⟨11, 12⟩⟩) [.identifier ⟨"p", ⟨13, 14⟩⟩]
      [.block ⟨18, 35⟩
        [.variableList ⟨20, 26⟩ .hoisted [.declarator (.identifier ⟨"v", ⟨24, 25⟩⟩) none],
          .variableList ⟨27, 33⟩ .lexical [.declarator (.identifier ⟨"w", ⟨31, 32⟩⟩) none]]] []) []]

theorem lexical_hoistingBlock :
    (∀ node ∈ Node.nodesOf .scopes hoistingBlock, node.Covers) ∧
      (build ⟨1, 38⟩ hoistingBlock).Lexical ∧
      (build ⟨1, 38⟩ hoistingBlock).scopeAt 31 = 2 ∧
      (build ⟨1, 38⟩ hoistingBlock).findVariable 2 "v" =
        some ⟨"v", [.of ⟨"v", ⟨24, 25⟩⟩ (.binding none)]⟩ := by
  have covers : ∀ node ∈ Node.nodesOf .scopes hoistingBlock, node.Covers := by decide
  exact ⟨covers, lexical_build covers, by decide, rfl⟩

end ScopeTree

end StoreLint
