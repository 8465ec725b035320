import StoreLint.Proofs.Tree.Bare

/-!
# Shifted trees

A tree can be moved to another place by adding an offset to all of its positions.  The
ranges of its nodes move along, also those that are put together from the ranges of
parts, and nothing that is read off the tree changes but for the positions in it.
-/

namespace StoreLint

theorem Span.cover_shift (offset : Nat) (first last : Span) :
    Span.cover (first.shift offset) (last.shift offset) =
      (Span.cover first last).shift offset := rfl

theorem Span.contains_shift (offset : Nat) (span : Span) (position : Nat) :
    (span.shift offset).contains (position + offset) = span.contains position := by
  simp [Span.contains, Span.shift]

theorem Span.isDummy_shift {span : Span} (placed : span.isDummy = false) (offset : Nat) :
    (span.shift offset).isDummy = false := by
  simp only [Span.isDummy, Span.shift, Bool.and_eq_false_iff, beq_eq_false_iff_ne] at placed ⊢
  omega

/-- The name moved `offset` bytes further on. -/
def Identifier.shift (offset : Nat) (id : Identifier) : Identifier :=
  { id with span := id.span.shift offset }

namespace Node

mutual

/-- The tree moved `offset` bytes further on. -/
@[simp]
def shift (offset : Nat) : Node → Node
  | .identifier id => .identifier (id.shift offset)
  | .literal span value => .literal (span.shift offset) value
  | .objectLiteral span entries => .objectLiteral (span.shift offset) (shiftList offset entries)
  | .arrayLiteral span elements => .arrayLiteral (span.shift offset) (shiftList offset elements)
  | .functionLike span form own params body types =>
      .functionLike (span.shift offset) form (own.map (Identifier.shift offset))
        (shiftList offset params) (shiftList offset body) (shiftList offset types)
  | .classLike span own members heritage =>
      .classLike (span.shift offset) (own.map (Identifier.shift offset))
        (shiftList offset members) (shiftList offset heritage)
  | .call span callee args types =>
      .call (span.shift offset) (callee.shift offset) (shiftList offset args)
        (shiftList offset types)
  | .member span object name => .member (span.shift offset) (object.shift offset) name
  | .index span object key =>
      .index (span.shift offset) (object.shift offset) (key.shift offset)
  | .reference span parts => .reference (span.shift offset) (shiftList offset parts)
  | .assignment span target value =>
      .assignment (span.shift offset) (target.shift offset) (value.shift offset)
  | .wrapped span wrapper inner types =>
      .wrapped (span.shift offset) wrapper (inner.shift offset) (shiftList offset types)
  | .operation span operator operands =>
      .operation (span.shift offset) operator (shiftList offset operands)
  | .compound span parts => .compound (span.shift offset) (shiftList offset parts)
  | .shorthand id => .shorthand (id.shift offset)
  | .initialized span id value =>
      .initialized (span.shift offset) (id.shift offset) (value.shift offset)
  | .keyValue key value => .keyValue (key.shift offset) (value.shift offset)
  | .getter span key types body =>
      .getter (span.shift offset) (key.shift offset) (shiftList offset types)
        (shiftList offset body)
  | .setter span key receiver param body =>
      .setter (span.shift offset) (key.shift offset) (shiftOption offset receiver)
        (param.shift offset) (shiftList offset body)
  | .methodEntry key function => .methodEntry (key.shift offset) (function.shift offset)
  | .spread span inner => .spread (span.shift offset) (inner.shift offset)
  | .plainKey span text => .plainKey (span.shift offset) text
  | .computedKey span inner => .computedKey (span.shift offset) (inner.shift offset)
  | .arrayPattern span elements => .arrayPattern (span.shift offset) (shiftList offset elements)
  | .objectPattern span properties =>
      .objectPattern (span.shift offset) (shiftList offset properties)
  | .restPattern span inner => .restPattern (span.shift offset) (inner.shift offset)
  | .defaulted span target value =>
      .defaulted (span.shift offset) (target.shift offset) (value.shift offset)
  | .annotated span target type =>
      .annotated (span.shift offset) (target.shift offset) (type.shift offset)
  | .block span body => .block (span.shift offset) (shiftList offset body)
  | .returns span value => .returns (span.shift offset) (shiftOption offset value)
  | .nested span heads bodies =>
      .nested (span.shift offset) (shiftList offset heads) (shiftList offset bodies)
  | .loop span heads body =>
      .loop (span.shift offset) (shiftList offset heads) (body.shift offset)
  | .catches span param body =>
      .catches (span.shift offset) (shiftOption offset param) (shiftList offset body)
  | .switch span discriminant cases =>
      .switch (span.shift offset) (discriminant.shift offset) (shiftList offset cases)
  | .variableList span kind declarators =>
      .variableList (span.shift offset) kind (shiftList offset declarators)
  | .declarator target init => .declarator (target.shift offset) (shiftOption offset init)
  | .declaration id value => .declaration (id.shift offset) (value.shift offset)
  | .imports span locals source attributes =>
      .imports (span.shift offset) (locals.map (Identifier.shift offset)) source
        (shiftOption offset attributes)
  | .classConstructor span params body =>
      .classConstructor (span.shift offset) (shiftList offset params) (shiftOption offset body)

def shiftList (offset : Nat) : List Node → List Node
  | [] => []
  | node :: nodes => node.shift offset :: shiftList offset nodes

def shiftOption (offset : Nat) : Option Node → Option Node
  | none => none
  | some node => some (node.shift offset)

end

variable (offset : Nat)

@[simp]
theorem shiftList_eq_map (nodes : List Node) :
    shiftList offset nodes = nodes.map (shift offset) := by
  induction nodes with
  | nil => simp [shiftList]
  | cons node nodes induction => simp [shiftList, induction]

@[simp]
theorem shiftOption_eq_map (part : Option Node) :
    shiftOption offset part = part.map (shift offset) := by
  cases part <;> simp [shiftOption]

theorem span_shift (node : Node) : (node.shift offset).span = node.span.shift offset := by
  induction node using inductionOnParts .whole with
  | step node induction =>
      cases node with
      | keyValue key value =>
          have ofKey := induction key (by simp [parts])
          have ofValue := induction value (by simp [parts])
          simp [span, ofKey, ofValue, Span.cover_shift]
      | methodEntry key function =>
          have ofKey := induction key (by simp [parts])
          have ofFunction := induction function (by simp [parts])
          simp [span, ofKey, ofFunction, Span.shift, Nat.add_min_add_right]
      | declarator target init =>
          have ofTarget := induction target (by simp [parts])
          cases init with
          | none => simp [span, ofTarget]
          | some init =>
              have ofInit := induction init (by simp [parts])
              simp [span, ofTarget, ofInit, Span.cover_shift]
      | declaration id value =>
          have ofValue := induction value (by simp [parts])
          simp [span, ofValue]
      | _ => simp [span, Identifier.shift]

theorem heads_shift (node : Node) : (node.shift offset).heads = node.heads.map (shift offset) := by
  cases node <;> simp [heads]

theorem parts_shift (extent : Extent) (node : Node) :
    (node.shift offset).parts extent = (node.parts extent).map (shift offset) := by
  have options : ∀ part : Option Node,
      (part.map (shift offset)).toList = part.toList.map (shift offset) := by
    rintro (_ | part) <;> rfl
  cases extent <;> cases node <;> simp [parts, Extent.aside, options]

theorem inner_shift (node : Node) : (node.shift offset).inner = node.inner.map (shift offset) := by
  have all := parts_shift offset .scopes node
  rw [← heads_append_inner, ← heads_append_inner, heads_shift, List.map_append] at all
  exact List.append_cancel_left all

theorem unwrap_shift (node : Node) : (node.shift offset).unwrap = node.unwrap.shift offset := by
  induction node using inductionOnParts .whole with
  | step node induction =>
      cases node with
      | wrapped span wrapper inner types =>
          rw [shift, unwrap, unwrap]
          exact induction inner (by simp [parts])
      | _ => simp [unwrap]

/-- A walk through a shifted tree meets the shifted nodes. -/
theorem walk_shift {enter shiftedEnter : Node → Bool}
    (same : ∀ node : Node, shiftedEnter (node.shift offset) = enter node) (node : Node) :
    walk .whole shiftedEnter (node.shift offset) = (walk .whole enter node).map (shift offset) := by
  induction node using inductionOnParts .whole with
  | step node induction =>
      have parts : ∀ nodes : List Node, nodes ⊆ node.parts .whole →
          walkList .whole shiftedEnter (nodes.map (shift offset)) =
            (walkList .whole enter nodes).map (shift offset) := by
        intro nodes areParts
        induction nodes with
        | nil => simp [walkList]
        | cons part nodes listInduction =>
            have first := induction part (areParts (by simp))
            have rest := listInduction fun other isOther => areParts (by simp [isOther])
            simp only [List.map_cons, walkList, first, rest, List.map_append]
      rw [walk_eq, walk_eq enter node, parts_shift, parts _ (List.Subset.refl _), entering,
        entering, same node]
      split
      · rfl
      · rfl

theorem walkList_shift {enter shiftedEnter : Node → Bool}
    (same : ∀ node : Node, shiftedEnter (node.shift offset) = enter node) (nodes : List Node) :
    walkList .whole shiftedEnter (nodes.map (shift offset)) =
      (walkList .whole enter nodes).map (shift offset) := by
  induction nodes with
  | nil => simp [walkList]
  | cons node nodes induction =>
      simp only [List.map_cons, walkList, walk_shift offset same, induction, List.map_append]

theorem keyName?_shift (key : Node) : (key.shift offset).keyName? = key.keyName? := by
  cases key <;> simp [keyName?]

theorem entryName?_shift (entry : Node) : (entry.shift offset).entryName? = entry.entryName? := by
  cases entry <;> simp [entryName?, keyName?_shift, Identifier.shift]

theorem entryKeySpan?_shift (entry : Node) :
    (entry.shift offset).entryKeySpan? = entry.entryKeySpan?.map (Span.shift offset) := by
  cases entry <;> simp [entryKeySpan?, span_shift, Identifier.shift]

theorem docAnchor_shift (entry : Node) :
    (entry.shift offset).docAnchor = entry.docAnchor + offset := by
  rw [docAnchor, docAnchor, entryKeySpan?_shift, span_shift]
  cases entry.entryKeySpan? with
  | none => rfl
  | some key => simp [Span.shift, Nat.add_min_add_right]

theorem isSpread_shift (entry : Node) : (entry.shift offset).isSpread = entry.isSpread := by
  cases entry <;> simp [isSpread]

theorem properEntries_shift (entries : List Node) :
    properEntries (entries.map (shift offset)) = (properEntries entries).map (shift offset) := by
  simp [properEntries, List.filter_map, Function.comp_def, isSpread_shift]

theorem names_shift (node : Node) :
    (node.shift offset).boundNames = node.boundNames.map (Identifier.shift offset) ∧
      (node.shift offset).propertyNames = node.propertyNames.map (Identifier.shift offset) := by
  -- Patterns hold properties and properties hold patterns, so the two facts need each other.
  induction node using inductionOnParts .whole with
  | step node induction =>
      cases node with
      | arrayPattern span elements =>
          refine ⟨?_, by simp [propertyNames]⟩
          simp only [shift, boundNames, boundNamesList_eq_flatMap, shiftList_eq_map,
            List.flatMap_map, List.map_flatMap]
          exact List.flatMap_congr fun element isElement => (induction element isElement).1
      | objectPattern span properties =>
          refine ⟨?_, by simp [propertyNames]⟩
          simp only [shift, boundNames, boundNamesProperties_eq_flatMap, shiftList_eq_map,
            List.flatMap_map, List.map_flatMap]
          exact List.flatMap_congr fun property isProperty => (induction property isProperty).2
      | restPattern span inner =>
          have below := (induction inner (by simp [parts])).1
          simp [boundNames, propertyNames, below]
      | defaulted span target value =>
          have below := (induction target (by simp [parts])).1
          simp [boundNames, propertyNames, below]
      | annotated span target type =>
          have below := (induction target (by simp [parts])).1
          simp [boundNames, propertyNames, below]
      | keyValue key value =>
          have below := (induction value (by simp [parts])).1
          simp [boundNames, propertyNames, below]
      | _ => simp [boundNames, propertyNames]

theorem boundNames_shift (pattern : Node) :
    (pattern.shift offset).boundNames = pattern.boundNames.map (Identifier.shift offset) :=
  (names_shift offset pattern).1

theorem untyped_shift (pattern : Node) :
    (pattern.shift offset).untyped = pattern.untyped.shift offset := by
  induction pattern using inductionOnParts .whole with
  | step pattern induction =>
      cases pattern with
      | annotated span target type =>
          rw [shift, untyped, untyped, induction target (by simp [parts])]
      | _ => simp [untyped]

theorem boundNamesList_shift (patterns : List Node) :
    boundNamesList (patterns.map (shift offset)) =
      (boundNamesList patterns).map (Identifier.shift offset) := by
  simp [boundNamesList_eq_flatMap, List.flatMap_map, List.map_flatMap, boundNames_shift]

theorem binds_shift (name : String) (pattern : Node) :
    (pattern.shift offset).binds name = pattern.binds name := by
  rw [(binds_eq_any_and name _).1, (binds_eq_any_and name _).1, boundNames_shift, List.any_map]
  rfl

theorem firstReturn_shift (node : Node) :
    (node.shift offset).firstReturn = node.firstReturn.map (Option.map (shift offset)) := by
  induction node using inductionOnParts .whole with
  | step node induction =>
      cases node with
      | returns span value => simp [firstReturn]
      | block span body =>
          rw [shift, firstReturn, firstReturn, shiftList_eq_map]
          exact firstReturnList_map fun part isPart => induction part isPart
      | nested span heads bodies =>
          rw [shift, firstReturn, firstReturn, shiftList_eq_map offset bodies]
          exact firstReturnList_map fun part isPart =>
            induction part (by simp [parts, isPart])
      | loop span heads body =>
          rw [shift, firstReturn, firstReturn]
          exact induction body (by simp [parts])
      | catches span param body =>
          rw [shift, firstReturn, firstReturn, shiftList_eq_map]
          exact firstReturnList_map fun part isPart =>
            induction part (by simp [parts, isPart])
      | switch span discriminant cases =>
          rw [shift, firstReturn, firstReturn, shiftList_eq_map]
          exact firstReturnList_map fun part isPart =>
            induction part (by simp [parts, isPart])
      | _ => simp [firstReturn]

theorem firstReturnList_shift (statements : List Node) :
    firstReturnList (statements.map (shift offset)) =
      (firstReturnList statements).map (Option.map (shift offset)) :=
  firstReturnList_map fun statement _ => firstReturn_shift offset statement

theorem returned?_shift (function : Node) :
    (function.shift offset).returned? = function.returned?.map (shift offset) := by
  cases function with
  | functionLike span form own params body types =>
      cases form with
      | concise => simp [returned?]
      | _ =>
          simp only [shift, returned?, shiftList_eq_map, firstReturnList_shift]
          rcases firstReturnList body with _ | _ | value <;> rfl
  | _ => simp [returned?]

theorem functionBody_shift (function : Node) :
    (function.shift offset).functionBody = function.functionBody.map (shift offset) := by
  cases function <;> simp [functionBody]

theorem parameters_shift (function : Node) :
    (function.shift offset).parameters = function.parameters.map (shift offset) := by
  cases function <;> simp [parameters]

theorem asFunction?_shift (value : Node) :
    (value.shift offset).asFunction? = value.asFunction?.map (shift offset) := by
  rw [asFunction?, asFunction?, unwrap_shift]
  cases value.unwrap <;> simp [isFunction]

theorem literalEntries_shift (value : Node) :
    (value.shift offset).literalEntries = value.literalEntries.map (shift offset) := by
  rw [literalEntries, literalEntries, unwrap_shift]
  cases value.unwrap with
  | objectLiteral span entries => simp [properEntries_shift]
  | _ => simp

theorem entriesOfValue_shift (value : Node) :
    (value.shift offset).entriesOfValue = value.entriesOfValue.map (shift offset) := by
  rw [entriesOfValue_eq, entriesOfValue_eq, literalEntries_shift, unwrap_shift, returned?_shift,
    List.map_append]
  cases value.unwrap.returned? with
  | none => rfl
  | some returned => simp [literalEntries_shift]

end Node

end StoreLint
