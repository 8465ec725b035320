import Mathlib.Data.List.Forall2
import StoreLint.Proofs.Scope.Opening
import StoreLint.Rule.RootAssets

/-!
# Bare trees

Wrappers stand for the value inside them, and a property key means the same as a name
and as a string.  The bare form of a tree has its wrappers taken off and its keys
spelled as strings, so two trees with one bare form differ in nothing else.  A wrapper
whose type holds expressions is not taken off, because they would be lost with it.

Not every place holds an expression.  Entries, members and declarators are never
wrapped, but their values are.  A binding pattern, a key and the function of a method
are not wrapped either, and their bare form keeps their range.  A property in the
target of an assignment is special: where it names an asset of the root store it is
reported with its range, which ends with its value.  So the value of such a property
is left in parentheses that are as wide as the property.
-/

namespace StoreLint

/-- A key that is a name, spelled as a string. -/
def KeyText.bare : KeyText → KeyText
  | .identifier name => .string (some name)
  | text => text

namespace Node

/-- Whether the node has the form of an expression. -/
def isExpression : Node → Bool
  | .identifier _ | .literal _ _ | .objectLiteral _ _ | .arrayLiteral _ _ => true
  | .functionLike _ _ _ _ _ _ | .classLike _ _ _ _ => true
  | .call _ _ _ _ | .member _ _ _ | .index _ _ _ | .reference _ _ => true
  | .assignment _ _ _ | .wrapped _ _ _ _ | .operation _ _ _ | .compound _ _ => true
  | _ => false

/-- The sorts of places in a tree. -/
inductive Role where
  /-- An expression, a statement or the target of an assignment. -/
  | free
  /-- An entry of a literal, a member of a class or a declarator. -/
  | entry
  /-- A property in the target of an assignment. -/
  | property
  /-- A key, a binding pattern or a declared function or class. -/
  | kept
deriving DecidableEq, Repr, Inhabited

/-- The role of the elements of a pattern and of the value of a property. -/
def Role.part : Role → Role
  | .kept => .kept
  | _ => .free

def Role.member : Role → Role
  | .kept => .kept
  | _ => .property

/-- Whether a property with this key names an asset of the root store. -/
def namesAsset (key : Node) : Bool := key.keyName?.any isRootAsset

/-- Whether types that hold no expressions can be made of the node. -/
def isTypeForm : Node → Bool
  | .identifier _ | .shorthand _ | .plainKey _ _ | .keyValue _ _ | .compound _ _ => true
  | .annotated _ _ _ | .arrayPattern _ _ | .objectPattern _ _ | .restPattern _ _ => true
  | _ => false

/-- Whether the types hold no expressions. -/
def arePlain (types : List Node) : Bool := (nodesOf .whole types).all isTypeForm

mutual

/-- The tree without its wrappers and with its keys spelled as strings. -/
@[simp]
def bare : Node → Role → Node
  | .identifier id, _ => .identifier id
  | .literal span value, _ => .literal span value
  | .objectLiteral span entries, _ => .objectLiteral span (bareList entries .entry)
  | .arrayLiteral span elements, _ => .arrayLiteral span (bareList elements .free)
  | .functionLike span form own params body types, _ =>
      .functionLike span form own (bareList params .kept) (bareList body .free)
        (bareList types .free)
  | .classLike span own members heritage, _ =>
      .classLike span own (bareList members .entry) (bareList heritage .free)
  | .call span callee args types, _ =>
      .call span (callee.bare .free) (bareList args .free) (bareList types .free)
  | .member span object name, _ => .member span (object.bare .free) name
  | .index span object key, _ => .index span (object.bare .free) (key.bare .free)
  | .reference span parts, _ => .reference span (bareList parts .free)
  | .assignment span target value, _ =>
      .assignment span (target.bare .free) (value.bare .free)
  | .wrapped span wrapper inner types, role =>
      if role = .free ∧ inner.unwrap.isExpression = true ∧ arePlain types = true then
        inner.bare .free
      else .wrapped span wrapper (inner.bare .free) (bareList types .free)
  | .operation span operator operands, _ => .operation span operator (bareList operands .free)
  | .compound span parts, _ => .compound span (bareList parts .free)
  | .shorthand id, _ => .shorthand id
  | .initialized span id value, _ => .initialized span id (value.bare .free)
  | .keyValue key value, role =>
      .keyValue (key.bare .kept)
        (if role = .property ∧ key.namesAsset = true then
          .wrapped (.cover key.span value.span) .parentheses (value.bare .free) []
        else value.bare role.part)
  | .getter span key types body, _ =>
      .getter span (key.bare .kept) (bareList types .free) (bareList body .free)
  | .setter span key receiver param body, _ =>
      .setter span (key.bare .kept) (bareOption receiver .kept) (param.bare .kept)
        (bareList body .free)
  | .methodEntry key function, _ => .methodEntry (key.bare .kept) (function.bare .kept)
  | .spread span inner, _ => .spread span (inner.bare .free)
  | .plainKey span text, _ => .plainKey span text.bare
  | .computedKey span inner, _ => .computedKey span (inner.bare .free)
  | .arrayPattern span elements, role => .arrayPattern span (bareList elements role.part)
  | .objectPattern span properties, role =>
      .objectPattern span (bareList properties role.member)
  | .restPattern span inner, role => .restPattern span (inner.bare role.part)
  | .defaulted span target value, role =>
      .defaulted span (target.bare role.part) (value.bare .free)
  | .annotated span target type, role =>
      .annotated span (target.bare role.part) (type.bare .free)
  | .block span body, _ => .block span (bareList body .free)
  | .returns span value, _ => .returns span (bareOption value .free)
  | .nested span heads bodies, _ => .nested span (bareList heads .free) (bareList bodies .free)
  | .loop span heads body, _ => .loop span (bareList heads .free) (body.bare .free)
  | .catches span param body, _ =>
      .catches span (bareOption param .kept) (bareList body .free)
  | .switch span discriminant cases, _ =>
      .switch span (discriminant.bare .free) (bareList cases .free)
  | .variableList span kind declarators, _ =>
      .variableList span kind (bareList declarators .entry)
  | .declarator target init, role => .declarator (target.bare .kept) (bareOption init role.part)
  | .declaration id value, _ => .declaration id (value.bare .kept)
  | .imports span locals source attributes, _ =>
      .imports span locals source (bareOption attributes .free)
  | .classConstructor span params body, _ =>
      .classConstructor span (bareList params .kept) (bareOption body .free)

def bareList : List Node → Role → List Node
  | [], _ => []
  | node :: nodes, role => node.bare role :: bareList nodes role

def bareOption : Option Node → Role → Option Node
  | none, _ => none
  | some node, role => some (node.bare role)

end

@[simp]
theorem bareList_eq_map (nodes : List Node) (role : Role) :
    bareList nodes role = nodes.map fun node => node.bare role := by
  induction nodes with
  | nil => simp [bareList]
  | cons node nodes induction => simp [bareList, induction]

@[simp]
theorem bareOption_eq_map (part : Option Node) (role : Role) :
    bareOption part role = part.map fun node => node.bare role := by
  cases part <;> simp [bareOption]

/-- The node is no wrapper. -/
def NotWrapped (node : Node) : Prop :=
  ∀ span wrapper inner types, node ≠ .wrapped span wrapper inner types

theorem wrapped_or_notWrapped (node : Node) :
    (∃ span wrapper inner types, node = .wrapped span wrapper inner types) ∨
      node.NotWrapped := by
  cases node with
  | wrapped span wrapper inner types => exact .inl ⟨span, wrapper, inner, types, rfl⟩
  | _ => exact .inr fun _ _ _ _ => nofun

theorem unwrap_of_notWrapped {node : Node} (notWrapped : node.NotWrapped) :
    node.unwrap = node := by
  cases node <;> first | rfl | exact absurd rfl (notWrapped _ _ _ _)

theorem notWrapped_unwrap (node : Node) : node.unwrap.NotWrapped := by
  induction node using inductionOnParts .whole with
  | step node induction =>
      cases node with
      | wrapped span wrapper inner types =>
          rw [unwrap]
          exact induction inner (by simp [parts])
      | _ => simp [unwrap, NotWrapped]

theorem notWrapped_bare {node : Node} (notWrapped : node.NotWrapped) (role : Role) :
    (node.bare role).NotWrapped := by
  cases node <;> first | exact absurd rfl (notWrapped _ _ _ _) | simp [bare, NotWrapped]

/-- Taking off the wrappers of the bare form gives the bare form of what is inside them. -/
theorem unwrap_bare (node : Node) : (node.bare .free).unwrap = node.unwrap.bare .free := by
  induction node using inductionOnParts .whole with
  | step node induction =>
      obtain ⟨span, wrapper, inner, types, rfl⟩ | notWrapped := wrapped_or_notWrapped node
      · have below := induction inner (by simp [parts])
        rw [bare, unwrap]
        split
        · exact below
        · rw [unwrap, below]
      · rw [unwrap_of_notWrapped notWrapped,
          unwrap_of_notWrapped (notWrapped_bare notWrapped .free)]

/-- Where the range of a node matters, its bare form has the same one. -/
theorem span_bare_kept (node : Node) : (node.bare .kept).span = node.span := by
  induction node using inductionOnParts .whole with
  | step node induction =>
      cases node with
      | keyValue key value =>
          have keyKept := induction key (by simp [parts])
          have valueKept := induction value (by simp [parts])
          simp [bare, span, Role.part, keyKept, valueKept]
      | methodEntry key function =>
          have keyKept := induction key (by simp [parts])
          have functionKept := induction function (by simp [parts])
          simp [bare, span, keyKept, functionKept]
      | declarator target init =>
          have targetKept := induction target (by simp [parts])
          cases init with
          | none => simp [bare, span, targetKept]
          | some init =>
              have initKept := induction init (by simp [parts])
              simp [bare, span, Role.part, targetKept, initKept]
      | declaration id value =>
          have valueKept := induction value (by simp [parts])
          simp [bare, span, valueKept]
      | _ => simp [bare, span]

theorem keyName?_bare (key : Node) : (key.bare .kept).keyName? = key.keyName? := by
  cases key with
  | plainKey span text => cases text <;> simp [bare, keyName?, KeyText.bare, KeyText.name?]
  | _ => simp [bare, keyName?]

theorem entryName?_bare {role : Role} (notFree : role ≠ .free) (entry : Node) :
    (entry.bare role).entryName? = entry.entryName? := by
  cases entry <;> simp [bare, entryName?, keyName?_bare, notFree]

theorem entryKeySpan?_bare {role : Role} (notFree : role ≠ .free) (entry : Node) :
    (entry.bare role).entryKeySpan? = entry.entryKeySpan? := by
  cases entry <;> simp [bare, entryKeySpan?, span_bare_kept, notFree]

theorem span_lo_bare {role : Role} (notFree : role ≠ .free) (entry : Node) :
    (entry.bare role).span.lo = entry.span.lo := by
  cases entry with
  | declarator target init => cases init <;> simp [bare, span, span_bare_kept, Span.cover]
  | _ => simp [bare, span, span_bare_kept, Span.cover, notFree]

theorem docAnchor_bare (entry : Node) : (entry.bare .entry).docAnchor = entry.docAnchor := by
  have notFree : Role.entry ≠ .free := by decide
  rw [docAnchor, docAnchor, entryKeySpan?_bare notFree, span_lo_bare notFree]

/-- A property that names an asset of the root store keeps its range. -/
theorem span_bare_property {property : Node} {name : String}
    (named : property.entryName? = some name) (isAsset : isRootAsset name = true) :
    (property.bare .property).span = property.span := by
  cases property with
  | keyValue key value =>
      have names : key.namesAsset = true := by
        simp only [entryName?] at named
        simp [namesAsset, named, isAsset]
      simp [bare, span, names, span_bare_kept, Span.cover]
  | methodEntry key function => simp [bare, span, span_bare_kept]
  | _ => simp [entryName?] at named <;> simp [bare, span]

theorem destructuredAsset?_bare {role : Role} (isPattern : role = .property ∨ role = .kept)
    (property : Node) :
    (property.bare role).destructuredAsset? = property.destructuredAsset? := by
  have notFree : role ≠ .free := by rcases isPattern with rfl | rfl <;> decide
  unfold destructuredAsset?
  rw [entryName?_bare notFree]
  cases named : property.entryName? with
  | none => rfl
  | some name =>
      by_cases isAsset : isRootAsset name = true
      · rcases isPattern with rfl | rfl
        · simp [isAsset, span_bare_property named isAsset]
        · simp [isAsset, span_bare_kept]
      · simp [isAsset]

theorem destructuredAssets_bare (properties : List Node) (role : Role) :
    destructuredAssets (properties.map fun property => property.bare role.member) =
      destructuredAssets properties := by
  have isPattern : role.member = .property ∨ role.member = .kept := by
    cases role <;> simp [Role.member]
  simp only [destructuredAssets, List.filterMap_map]
  congr 1
  funext property
  exact destructuredAsset?_bare isPattern property

/-- The names that one property of an object pattern binds. -/
def propertyNames : Node → List Identifier
  | .shorthand id => [id]
  | .initialized _ id _ => [id]
  | .keyValue _ value => value.boundNames
  | .restPattern _ inner => inner.boundNames
  | _ => []

theorem boundNamesList_eq_flatMap (elements : List Node) :
    boundNamesList elements = elements.flatMap boundNames := by
  induction elements with
  | nil => simp [boundNamesList]
  | cons element elements induction => simp [boundNamesList, induction]

theorem boundNamesProperties_eq_flatMap (properties : List Node) :
    boundNamesProperties properties = properties.flatMap propertyNames := by
  induction properties with
  | nil => simp [boundNamesProperties]
  | cons property properties induction =>
      cases property <;> simp [boundNamesProperties, propertyNames, induction]

theorem names_bare (node : Node) :
    (node.bare .kept).boundNames = node.boundNames ∧
      (node.bare .kept).propertyNames = node.propertyNames := by
  -- Patterns hold properties and properties hold patterns, so the two facts need each other.
  induction node using inductionOnParts .whole with
  | step node induction =>
      cases node with
      | arrayPattern span elements =>
          refine ⟨?_, by simp [bare, propertyNames]⟩
          simp only [bare, boundNames, boundNamesList_eq_flatMap, bareList_eq_map, Role.part,
            List.flatMap_map]
          exact List.flatMap_congr fun element isElement => (induction element isElement).1
      | objectPattern span properties =>
          refine ⟨?_, by simp [bare, propertyNames]⟩
          simp only [bare, boundNames, boundNamesProperties_eq_flatMap, bareList_eq_map,
            Role.member, List.flatMap_map]
          exact List.flatMap_congr fun property isProperty => (induction property isProperty).2
      | restPattern span inner =>
          have below := (induction inner (by simp [parts])).1
          simp [bare, boundNames, propertyNames, Role.part, below]
      | defaulted span target value =>
          have below := (induction target (by simp [parts])).1
          simp [bare, boundNames, propertyNames, Role.part, below]
      | annotated span target type =>
          have below := (induction target (by simp [parts])).1
          simp [bare, boundNames, propertyNames, Role.part, below]
      | keyValue key value =>
          have below := (induction value (by simp [parts])).1
          simp [bare, boundNames, propertyNames, Role.part, below]
      | _ => simp [bare, boundNames, propertyNames]

/-- The bare form of a pattern binds the same names. -/
theorem boundNames_bare (pattern : Node) : (pattern.bare .kept).boundNames = pattern.boundNames :=
  (names_bare pattern).1

theorem boundNames_untyped (pattern : Node) : pattern.untyped.boundNames = pattern.boundNames := by
  induction pattern using inductionOnParts .whole with
  | step pattern induction =>
      cases pattern with
      | annotated span target type =>
          rw [untyped, boundNames, induction target (by simp [parts])]
      | _ => rfl

theorem untyped_bare (pattern : Node) :
    (pattern.bare .kept).untyped = pattern.untyped.bare .kept := by
  induction pattern using inductionOnParts .whole with
  | step pattern induction =>
      cases pattern with
      | annotated span target type =>
          rw [bare, untyped, untyped, Role.part, induction target (by simp [parts])]
      | _ => simp [bare, untyped]

theorem boundNamesList_bare (patterns : List Node) :
    boundNamesList (patterns.map fun pattern => pattern.bare .kept) = boundNamesList patterns := by
  simp [boundNamesList_eq_flatMap, List.flatMap_map, boundNames_bare]

theorem anyBinds_eq_any (name : String) (elements : List Node) :
    anyBinds name elements = elements.any (binds name) := by
  induction elements with
  | nil => simp [anyBinds]
  | cons element elements induction => simp [anyBinds, induction]

theorem anyPropertyBinds_cons (name : String) (property : Node) (properties : List Node) :
    anyPropertyBinds name (property :: properties) =
      (anyPropertyBinds name [property] || anyPropertyBinds name properties) := by
  cases property <;> simp [anyPropertyBinds]

theorem anyPropertyBinds_eq_any (name : String) (properties : List Node) :
    anyPropertyBinds name properties =
      properties.any fun property => anyPropertyBinds name [property] := by
  induction properties with
  | nil => simp [anyPropertyBinds]
  | cons property properties induction =>
      rw [anyPropertyBinds_cons, induction, List.any_cons]

theorem binds_eq_any_and (name : String) (node : Node) :
    node.binds name = node.boundNames.any (fun id => id.name == name) ∧
      anyPropertyBinds name [node] = node.propertyNames.any (fun id => id.name == name) := by
  induction node using inductionOnParts .whole with
  | step node induction =>
      cases node with
      | arrayPattern span elements =>
          refine ⟨?_, by simp [anyPropertyBinds, propertyNames]⟩
          simp only [binds, boundNames, anyBinds_eq_any, boundNamesList_eq_flatMap,
            List.any_flatMap]
          rw [Bool.eq_iff_iff, List.any_eq_true, List.any_eq_true]
          refine exists_congr fun element => and_congr_right fun isElement => ?_
          rw [(induction element isElement).1]
      | objectPattern span properties =>
          refine ⟨?_, by simp [anyPropertyBinds, propertyNames]⟩
          rw [binds, boundNames, anyPropertyBinds_eq_any, boundNamesProperties_eq_flatMap,
            List.any_flatMap]
          rw [Bool.eq_iff_iff, List.any_eq_true, List.any_eq_true]
          refine exists_congr fun property => and_congr_right fun isProperty => ?_
          rw [(induction property isProperty).2]
      | restPattern span inner =>
          have below := (induction inner (by simp [parts])).1
          simp [binds, anyPropertyBinds, boundNames, propertyNames, below]
      | defaulted span target value =>
          have below := (induction target (by simp [parts])).1
          simp [binds, anyPropertyBinds, boundNames, propertyNames, below]
      | annotated span target type =>
          have below := (induction target (by simp [parts])).1
          simp [binds, anyPropertyBinds, boundNames, propertyNames, below]
      | keyValue key value =>
          have below := (induction value (by simp [parts])).1
          simp [binds, anyPropertyBinds, boundNames, propertyNames, below]
      | _ => simp [binds, anyPropertyBinds, boundNames, propertyNames]

theorem anyBinds_iff {name : String} {patterns : List Node} :
    anyBinds name patterns = true ↔ ∃ id ∈ boundNamesList patterns, id.name = name := by
  simp only [anyBinds_eq_any, boundNamesList_eq_flatMap, List.any_eq_true, List.mem_flatMap,
    (binds_eq_any_and name _).1, beq_iff_eq]
  constructor
  · rintro ⟨pattern, isPattern, id, isBound, isName⟩
    exact ⟨id, ⟨pattern, isPattern, isBound⟩, isName⟩
  · rintro ⟨id, ⟨pattern, isPattern, isBound⟩, isName⟩
    exact ⟨pattern, isPattern, id, isBound, isName⟩

theorem binds_bare (name : String) (pattern : Node) :
    (pattern.bare .kept).binds name = pattern.binds name := by
  rw [(binds_eq_any_and name _).1, (binds_eq_any_and name _).1, boundNames_bare]

/-- One node is a bare form of another one, possibly in parentheses. -/
inductive BareOf (node : Node) : Node → Prop where
  | plain (role : Role) : BareOf node (node.bare role)
  | ranged (span : Span) (role : Role) :
      BareOf node (.wrapped span .parentheses (node.bare role) [])

theorem bareOf_map (nodes : List Node) (role : Role) :
    List.Forall₂ BareOf nodes (nodes.map fun node => node.bare role) := by
  induction nodes with
  | nil => exact .nil
  | cons node nodes induction => exact .cons (.plain role) induction

theorem bareOf_toList (part : Option Node) (role : Role) :
    List.Forall₂ BareOf part.toList (part.map fun node => node.bare role).toList := by
  cases part with
  | none => exact .nil
  | some node => exact .cons (.plain role) .nil

theorem bareOf_append {first first' second second' : List Node}
    (left : List.Forall₂ BareOf first first') (right : List.Forall₂ BareOf second second') :
    List.Forall₂ BareOf (first ++ second) (first' ++ second') :=
  List.rel_append left right

theorem bareOf_bare (node : Node) (role : Role) : BareOf node (node.bare role) := .plain role

theorem bareOf_value (key value : Node) (role : Role) :
    BareOf value
      (if role = .property ∧ key.namesAsset = true then
        .wrapped (.cover key.span value.span) .parentheses (value.bare .free) []
      else value.bare role.part) := by
  split
  · exact .ranged _ .free
  · exact .plain role.part

/-- The parts of the bare form are the bare forms of the parts. -/
theorem heads_bare {node : Node} (notWrapped : node.NotWrapped) (role : Role) :
    List.Forall₂ BareOf node.heads (node.bare role).heads := by
  cases node with
  | wrapped span wrapper inner types => exact absurd rfl (notWrapped _ _ _ _)
  | _ => simp [bare, heads, bareOf_bare]

theorem inner_bare {node : Node} (notWrapped : node.NotWrapped) (role : Role) :
    List.Forall₂ BareOf node.inner (node.bare role).inner := by
  cases node with
  | wrapped span wrapper inner types => exact absurd rfl (notWrapped _ _ _ _)
  | keyValue key value =>
      simp only [bare, inner, parts, List.forall₂_cons]
      exact ⟨bareOf_bare key .kept, bareOf_value key value role, .nil⟩
  | _ => simp [bare, inner, parts, Extent.aside, bareOf_bare, bareOf_toList, bareOf_append]

theorem parts_bare {node : Node} (notWrapped : node.NotWrapped) (role : Role) :
    List.Forall₂ BareOf (node.parts .whole) ((node.bare role).parts .whole) := by
  cases node with
  | wrapped span wrapper inner types => exact absurd rfl (notWrapped _ _ _ _)
  | keyValue key value =>
      simp only [bare, parts, List.forall₂_cons]
      exact ⟨bareOf_bare key .kept, bareOf_value key value role, .nil⟩
  | _ => simp [bare, parts, Extent.aside, bareOf_bare, bareOf_toList, bareOf_append]

/-- What is looked for in a tree, and in its bare form, has nothing to do with wrappers. -/
structure Agrees {α : Type} (enter : Node → Bool) (found bareFound : Node → List α) :
    Prop where
  enters_wrapped : ∀ span wrapper inner types,
    enter (.wrapped span wrapper inner types) = true
  found_wrapped : ∀ span wrapper inner types, found (.wrapped span wrapper inner types) = []
  bareFound_wrapped : ∀ span wrapper inner types,
    bareFound (.wrapped span wrapper inner types) = []
  found_typeForm : ∀ node, node.isTypeForm = true → found node = []
  enters_bare : ∀ {node : Node}, node.NotWrapped → ∀ role,
    enter (node.bare role) = enter node
  found_bare : ∀ {node : Node}, node.NotWrapped → ∀ role,
    bareFound (node.bare role) = found node

section Walk

variable {α : Type} {enter : Node → Bool} {found bareFound : Node → List α}

theorem Agrees.flatMap_wrapped (agrees : Agrees enter found bareFound) (span : Span)
    (wrapper : Wrapper) (inner : Node) (types : List Node) :
    (walk .whole enter (.wrapped span wrapper inner types)).flatMap found =
        (walk .whole enter inner).flatMap found ++
          (walkList .whole enter types).flatMap found ∧
      (walk .whole enter (.wrapped span wrapper inner types)).flatMap bareFound =
        (walk .whole enter inner).flatMap bareFound ++
          (walkList .whole enter types).flatMap bareFound := by
  simp [walk, entering, agrees.enters_wrapped, agrees.found_wrapped, agrees.bareFound_wrapped]

theorem Agrees.flatMap_plain (agrees : Agrees enter found bareFound) {types : List Node}
    (plain : arePlain types = true) : (walkList .whole enter types).flatMap found = [] := by
  rw [List.flatMap_eq_nil_iff]
  intro node isNode
  obtain ⟨type, isType, inType⟩ := mem_walkList_iff.mp isNode
  have isPart := nodesOf_singleton_subset isType (walk_subset_nodesOf enter type inType)
  exact agrees.found_typeForm node (List.all_eq_true.mp plain node isPart)

theorem Agrees.flatMap_bareOf (agrees : Agrees enter found bareFound) {node form : Node}
    (bareOf : BareOf node form)
    (ofBare : ∀ role, (walk .whole enter (node.bare role)).flatMap bareFound =
      (walk .whole enter node).flatMap found) :
    (walk .whole enter form).flatMap bareFound = (walk .whole enter node).flatMap found := by
  cases bareOf with
  | plain role => exact ofBare role
  | ranged span role =>
      rw [(agrees.flatMap_wrapped _ _ _ _).2, ofBare role, walkList, List.flatMap_nil,
        List.append_nil]

/-- What is found in forms of nodes is what is found in the nodes. -/
theorem Agrees.flatMap_forms (agrees : Agrees enter found bareFound) {nodes forms : List Node}
    (bareOf : List.Forall₂ BareOf nodes forms)
    (ofBare : ∀ node ∈ nodes, ∀ role, (walk .whole enter (node.bare role)).flatMap bareFound =
      (walk .whole enter node).flatMap found) :
    (walkList .whole enter forms).flatMap bareFound =
      (walkList .whole enter nodes).flatMap found := by
  induction bareOf with
  | nil => simp [walkList]
  | @cons node form nodes forms isForm rest induction =>
      have first := agrees.flatMap_bareOf isForm (ofBare node (by simp))
      have others := induction fun other isOther => ofBare other (List.mem_cons_of_mem _ isOther)
      simp only [walkList, List.flatMap_append, first, others]

theorem Agrees.flatMap_walk (agrees : Agrees enter found bareFound) (node : Node) (role : Role) :
    (walk .whole enter (node.bare role)).flatMap bareFound =
      (walk .whole enter node).flatMap found := by
  induction node using inductionOnParts .whole generalizing role with
  | step node induction =>
      obtain ⟨span, wrapper, inner, types, rfl⟩ | notWrapped := wrapped_or_notWrapped node
      · have below := induction inner (by simp [parts]) .free
        rw [(agrees.flatMap_wrapped span wrapper inner types).1, bare]
        split
        next isFree => rw [agrees.flatMap_plain isFree.2.2, List.append_nil, below]
        next =>
          rw [(agrees.flatMap_wrapped _ _ _ _).2, below, bareList_eq_map,
            agrees.flatMap_forms (bareOf_map types .free)
              fun type isType => induction type (by simp [parts, isType])]
      · have below := agrees.flatMap_forms (parts_bare notWrapped role) induction
        rw [walk_eq, walk_eq enter node, entering, entering, agrees.enters_bare notWrapped role]
        split
        · rw [List.flatMap_cons, List.flatMap_cons, below, agrees.found_bare notWrapped role]
        · rfl

theorem Agrees.flatMap_walkList (agrees : Agrees enter found bareFound) (nodes : List Node)
    (role : Role) :
    (walkList .whole enter (nodes.map fun node => node.bare role)).flatMap bareFound =
      (walkList .whole enter nodes).flatMap found :=
  agrees.flatMap_forms (bareOf_map nodes role) fun node _ => agrees.flatMap_walk node

end Walk

theorem firstReturn_eq_none_of_unwrap {node : Node}
    (isExpression : node.unwrap.isExpression = true) : node.firstReturn = none := by
  cases node <;> first | rfl | simp [unwrap, Node.isExpression] at isExpression

/-- A `return` statement and its value in bare form. -/
def bareReturn (found : Option (Option Node)) : Option (Option Node) :=
  found.map fun value => value.map fun value => value.bare .free

theorem firstReturnList_map {statements : List Node} {form value : Node → Node}
    (each : ∀ statement ∈ statements,
      (form statement).firstReturn = statement.firstReturn.map (Option.map value)) :
    firstReturnList (statements.map form) =
      (firstReturnList statements).map (Option.map value) := by
  induction statements with
  | nil => simp [firstReturnList]
  | cons statement statements induction =>
      have first := each statement (by simp)
      have rest := induction fun other isOther => each other (List.mem_cons_of_mem _ isOther)
      simp only [List.map_cons, firstReturnList, first]
      cases statement.firstReturn with
      | none => simpa using rest
      | some value => simp

/-- The first `return` of the bare form returns the bare form of the value. -/
theorem firstReturn_bare (node : Node) (role : Role) :
    (node.bare role).firstReturn = bareReturn node.firstReturn := by
  induction node using inductionOnParts .whole generalizing role with
  | step node induction =>
      cases node with
      | wrapped span wrapper inner types =>
          rw [bare]
          split
          next isFree =>
            have noReturn := firstReturn_eq_none_of_unwrap isFree.2.1
            have below := induction inner (by simp [parts]) .free
            simp [below, noReturn, firstReturn, bareReturn]
          next => simp [firstReturn, bareReturn]
      | returns span value => simp [bare, firstReturn, bareReturn]
      | block span body =>
          rw [bare, firstReturn, firstReturn, bareList_eq_map]
          exact firstReturnList_map fun part isPart => induction part isPart .free
      | nested span heads bodies =>
          rw [bare, firstReturn, firstReturn, bareList_eq_map bodies]
          exact firstReturnList_map fun part isPart =>
            induction part (by simp [parts, isPart]) .free
      | loop span heads body =>
          rw [bare, firstReturn, firstReturn]
          exact induction body (by simp [parts]) .free
      | catches span param body =>
          rw [bare, firstReturn, firstReturn, bareList_eq_map]
          exact firstReturnList_map fun part isPart =>
            induction part (by simp [parts, isPart]) .free
      | switch span discriminant cases =>
          rw [bare, firstReturn, firstReturn, bareList_eq_map]
          exact firstReturnList_map fun part isPart =>
            induction part (by simp [parts, isPart]) .free
      | _ => simp [bare, firstReturn, bareReturn]

theorem firstReturnList_bare (statements : List Node) :
    firstReturnList (statements.map fun statement => statement.bare .free) =
      bareReturn (firstReturnList statements) :=
  firstReturnList_map fun statement _ => firstReturn_bare statement .free

theorem returned?_bare {function : Node} (notWrapped : function.NotWrapped) (role : Role) :
    (function.bare role).returned? =
      function.returned?.map fun value => value.bare .free := by
  cases function with
  | wrapped span wrapper inner types => exact absurd rfl (notWrapped _ _ _ _)
  | functionLike span form own params body types =>
      cases form with
      | concise => simp [bare, returned?]
      | _ =>
          simp only [bare, returned?, bareList_eq_map, firstReturnList_bare, bareReturn]
          rcases firstReturnList body with _ | _ | value <;> rfl
  | _ => simp [bare, returned?]

theorem functionBody_bare (function : Node) :
    (function.bare .kept).functionBody =
      function.functionBody.map fun statement => statement.bare .free := by
  cases function <;> simp [bare, functionBody]

theorem parameters_bare (function : Node) :
    (function.bare .kept).parameters =
      function.parameters.map fun pattern => pattern.bare .kept := by
  cases function <;> simp [bare, parameters]

theorem asFunction?_bare (value : Node) :
    (value.bare .free).asFunction? =
      value.asFunction?.map fun function => function.bare .kept := by
  have notWrapped := notWrapped_unwrap value
  rw [asFunction?, asFunction?, unwrap_bare]
  generalize value.unwrap = inner at notWrapped
  cases inner with
  | wrapped span wrapper inside types => exact absurd rfl (notWrapped _ _ _ _)
  | _ => simp [bare, isFunction]

theorem isSpread_bare {role : Role} (notFree : role ≠ .free) (entry : Node) :
    (entry.bare role).isSpread = entry.isSpread := by
  cases entry <;> simp [bare, isSpread, notFree]

theorem properEntries_bare (entries : List Node) :
    properEntries (entries.map fun entry => entry.bare .entry) =
      (properEntries entries).map fun entry => entry.bare .entry := by
  have notFree : Role.entry ≠ .free := by decide
  simp [properEntries, List.filter_map, Function.comp_def, isSpread_bare notFree]

def literalEntries (value : Node) : List Node :=
  match value.unwrap with
  | .objectLiteral _ entries => properEntries entries
  | _ => []

theorem literalEntries_bare (value : Node) :
    (value.bare .free).literalEntries =
      value.literalEntries.map fun entry => entry.bare .entry := by
  have notWrapped := notWrapped_unwrap value
  rw [literalEntries, literalEntries, unwrap_bare]
  generalize value.unwrap = inner at notWrapped
  cases inner with
  | wrapped span wrapper inside types => exact absurd rfl (notWrapped _ _ _ _)
  | objectLiteral span entries => simp [bare, properEntries_bare]
  | _ => simp [bare]

theorem entriesOfValue_eq (value : Node) :
    value.entriesOfValue =
      value.literalEntries ++ ((value.unwrap.returned?).map literalEntries).getD [] := by
  unfold entriesOfValue
  split
  next span entries isLiteral => simp [literalEntries, isLiteral, returned?]
  next notLiteral =>
    have noEntries : value.literalEntries = [] := by
      unfold literalEntries
      split
      next span entries isLiteral => exact absurd isLiteral (notLiteral span entries)
      next => rfl
    rw [noEntries, List.nil_append]
    cases value.unwrap.returned? with
    | none => rfl
    | some returned => rfl

theorem entriesOfValue_bare (value : Node) :
    (value.bare .free).entriesOfValue =
      value.entriesOfValue.map fun entry => entry.bare .entry := by
  rw [entriesOfValue_eq, entriesOfValue_eq, literalEntries_bare, unwrap_bare,
    returned?_bare (notWrapped_unwrap value), List.map_append]
  cases value.unwrap.returned? with
  | none => rfl
  | some returned => simp [literalEntries_bare]

end Node

end StoreLint
