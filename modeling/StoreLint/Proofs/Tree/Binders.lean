import StoreLint.Proofs.Tree.Bare
import StoreLint.Proofs.Tree.Routes

/-!
# The names that a pattern binds

A pattern holds many names, and binds those that stand neither in a key, nor in a default
value, nor in a type, nor in an expression that is assigned to.  `BindsAt` says this of a
name at a place, whatever the pattern is made of, and `binders` lists the names with their
places.  `map_snd_binders_eq` measures the traversal that collects the names of a pattern
by this list.
-/

namespace StoreLint

namespace Node

/-! ## Patterns and the names in them -/

mutual

/-- The node has the form of a pattern.  A name stands for itself, and any other expression for a
place that is assigned to. -/
inductive IsPattern : Node → Prop where
  | name {id : Identifier} : IsPattern (.identifier id)
  | array {span : Span} {elements : List Node} (each : ∀ element ∈ elements, IsPattern element) :
      IsPattern (.arrayPattern span elements)
  | object {span : Span} {properties : List Node}
      (each : ∀ property ∈ properties, IsProperty property) :
      IsPattern (.objectPattern span properties)
  | rest {span : Span} {inner : Node} (isPattern : IsPattern inner) :
      IsPattern (.restPattern span inner)
  | defaulted {span : Span} {target value : Node} (isPattern : IsPattern target) :
      IsPattern (.defaulted span target value)
  | annotated {span : Span} {target type : Node} (isPattern : IsPattern target) :
      IsPattern (.annotated span target type)
  | assigned {target : Node} (isExpression : target.isExpression = true) : IsPattern target

/-- The node has the form of a property of an object pattern. -/
inductive IsProperty : Node → Prop where
  | shorthand {id : Identifier} : IsProperty (.shorthand id)
  | initialized {span : Span} {id : Identifier} {value : Node} :
      IsProperty (.initialized span id value)
  | keyValue {key value : Node} (isPattern : IsPattern value) : IsProperty (.keyValue key value)
  | rest {span : Span} {inner : Node} (isPattern : IsPattern inner) :
      IsProperty (.restPattern span inner)

end

def spelled? : Node → Option Identifier
  | .identifier id | .shorthand id | .initialized _ id _ => some id
  | _ => none

/-- Whether nothing is bound in the part of a node with that number: it is a key, a default value, a
type or a part of an expression. -/
def shuts : Node → Nat → Bool
  | .keyValue _ _, number => number == 0
  | .initialized _ _ _, _ => true
  | .defaulted _ _ _, number => number == 1
  | .annotated _ _ _, number => number == 1
  | node, _ => node.isExpression

/-- The route leads to a name, and on the way to no part in which nothing is bound. -/
inductive BindsAt : Node → List Nat → Identifier → Prop where
  | here {node : Node} {id : Identifier} (isSpelled : node.spelled? = some id) :
      BindsAt node [] id
  | inside {node part : Node} {number : Nat} {route : List Nat} {id : Identifier}
      (isPart : (node.parts .scopes)[number]? = some part) (isOpen : node.shuts number = false)
      (binds : BindsAt part route id) : BindsAt node (number :: route) id

/-- The names that a pattern binds with their routes, in visiting order. -/
def binders (node : Node) : List (List Nat × Identifier) :=
  node.spelled?.toList.map (Prod.mk []) ++ (node.parts .scopes).zipIdx.attach.flatMap fun part =>
    if node.shuts part.1.2 then []
    else part.1.1.binders.map fun binder => (part.1.2 :: binder.1, binder.2)
termination_by sizeOf node
decreasing_by
  exact sizeOf_lt_of_mem_parts (List.fst_mem_of_mem_zipIdx part.2)

/-- The binders in the part of a node with that number. -/
def bindersIn (node part : Node) (number : Nat) : List (List Nat × Identifier) :=
  if node.shuts number then []
  else part.binders.map fun binder => (number :: binder.1, binder.2)

theorem binders_eq (node : Node) :
    node.binders = node.spelled?.toList.map (Prod.mk []) ++
      (node.parts .scopes).zipIdx.flatMap fun part => node.bindersIn part.1 part.2 := by
  conv =>
    rhs
    rw [← List.attach_map_subtype_val (node.parts .scopes).zipIdx, List.flatMap_map]
  rw [binders]
  rfl

@[simp] theorem binders_identifier (id : Identifier) :
    (Node.identifier id).binders = [([], id)] := by
  rw [binders_eq]
  rfl

theorem mem_bindersIn_iff {node part : Node} {number : Nat} {route : List Nat}
    {id : Identifier} :
    (route, id) ∈ node.bindersIn part number ↔
      node.shuts number = false ∧
        ∃ further, route = number :: further ∧ (further, id) ∈ part.binders := by
  rw [bindersIn]
  cases node.shuts number with
  | true => simp
  | false =>
      simp only [Bool.false_eq_true, ↓reduceIte, List.mem_map, Prod.mk.injEq, true_and]
      constructor
      · rintro ⟨⟨further, _⟩, isBinder, rfl, rfl⟩
        exact ⟨further, rfl, isBinder⟩
      · rintro ⟨further, rfl, isBinder⟩
        exact ⟨(further, id), isBinder, rfl, rfl⟩

/-- The listed names are those that are bound. -/
theorem mem_binders_iff {node : Node} {route : List Nat} {id : Identifier} :
    (route, id) ∈ node.binders ↔ node.BindsAt route id := by
  induction node using inductionOnParts .scopes generalizing route with
  | step node induction =>
      rw [binders_eq, List.mem_append, List.mem_flatMap]
      constructor
      · rintro (isOwn | ⟨⟨part, number⟩, isPart, isInside⟩)
        · obtain ⟨own, isSpelled, isBinder⟩ := List.mem_map.mp isOwn
          cases isBinder
          exact .here (Option.mem_toList.mp isSpelled)
        · obtain ⟨isOpen, further, rfl, isBinder⟩ := mem_bindersIn_iff.mp isInside
          have isPart := List.mem_zipIdx_iff_getElem?.mp isPart
          exact .inside isPart isOpen
            ((induction part (List.mem_of_getElem? isPart)).mp isBinder)
      · intro binds
        cases binds with
        | here isSpelled =>
            exact .inl (List.mem_map.mpr ⟨id, Option.mem_toList.mpr isSpelled, rfl⟩)
        | @inside _ part number further _ isPart isOpen binds =>
            have isBinder := (induction part (List.mem_of_getElem? isPart)).mpr binds
            refine .inr ⟨(part, number), List.mem_zipIdx_iff_getElem?.mpr isPart, ?_⟩
            exact mem_bindersIn_iff.mpr ⟨isOpen, further, rfl, isBinder⟩

theorem pairwise_bindersIn {node part : Node} {number : Nat}
    (inOrder : part.binders.Pairwise fun first second => first.1 < second.1) :
    (node.bindersIn part number).Pairwise fun first second => first.1 < second.1 := by
  rw [bindersIn]
  split
  · exact .nil
  · rw [List.pairwise_map]
    apply inOrder.imp
    intro first second isEarlier
    exact List.Lex.cons isEarlier

/-- Bound names are listed in visiting order, each once. -/
theorem pairwise_binders (node : Node) :
    node.binders.Pairwise fun first second => first.1 < second.1 := by
  induction node using inductionOnParts .scopes with
  | step node induction =>
      rw [binders_eq, List.pairwise_append]
      refine ⟨?_, ?_, ?_⟩
      · cases node.spelled? with
        | none => exact .nil
        | some id => exact List.pairwise_singleton _ _
      · rw [List.pairwise_flatMap]
        constructor
        · rintro ⟨part, number⟩ isPart
          exact pairwise_bindersIn (induction part (List.fst_mem_of_mem_zipIdx isPart))
        · apply (pairwise_zipIdx (node.parts .scopes)).imp
          rintro ⟨left, leftNumber⟩ ⟨right, rightNumber⟩ isEarlier ⟨first, _⟩ isFirst ⟨second, _⟩
            isSecond
          obtain ⟨_, _, rfl, _⟩ := mem_bindersIn_iff.mp isFirst
          obtain ⟨_, _, rfl, _⟩ := mem_bindersIn_iff.mp isSecond
          exact List.Lex.rel isEarlier
      · -- The own name of a node stands at the empty route.
        rintro ⟨own, _⟩ isOwn ⟨second, _⟩ isSecond
        obtain ⟨_, _, isBinder⟩ := List.mem_map.mp isOwn
        cases isBinder
        obtain ⟨⟨part, number⟩, _, isInside⟩ := List.mem_flatMap.mp isSecond
        obtain ⟨_, _, rfl, _⟩ := mem_bindersIn_iff.mp isInside
        exact List.Lex.nil

/-! ## The traversals -/

theorem map_snd_binders (node : Node) :
    node.binders.map Prod.snd = node.spelled?.toList ++
      (node.parts .scopes).zipIdx.flatMap fun part =>
        if node.shuts part.2 then [] else part.1.binders.map Prod.snd := by
  have parts : ∀ part : Node × Nat, (node.bindersIn part.1 part.2).map Prod.snd =
      if node.shuts part.2 then [] else part.1.binders.map Prod.snd := by
    intro part
    rw [bindersIn]
    split
    · rfl
    · rw [List.map_map]
      rfl
  rw [binders_eq, List.map_append, List.map_flatMap, List.map_map]
  simp only [parts]
  congr 1
  exact List.map_id _

theorem map_snd_binders_of_open {node : Node} (isOpen : ∀ number, node.shuts number = false) :
    node.binders.map Prod.snd = node.spelled?.toList ++
      (node.parts .scopes).flatMap fun part => part.binders.map Prod.snd := by
  rw [map_snd_binders]
  simp only [isOpen, Bool.false_eq_true, ↓reduceIte]
  conv =>
    rhs
    rw [← List.zipIdx_map_fst 0 (node.parts .scopes), List.flatMap_map]

theorem map_snd_binders_of_isExpression {node : Node} (isExpression : node.isExpression = true) :
    node.binders.map Prod.snd = node.boundNames := by
  have isShut : ∀ number, node.shuts number = true := by
    intro number
    cases node <;> simp_all [Node.isExpression, shuts]
  rw [map_snd_binders]
  simp only [isShut, ↓reduceIte]
  cases node <;> simp_all [Node.isExpression, spelled?, boundNames]

/-- The names that are declared for a pattern, or for a property of a pattern, are those that it
binds. -/
theorem map_snd_binders_eq (node : Node) :
    (node.IsPattern → node.binders.map Prod.snd = node.boundNames) ∧
      (node.IsProperty → node.binders.map Prod.snd = node.propertyNames) := by
  -- Patterns hold properties and properties hold patterns, so the two facts need each other.
  induction node using inductionOnParts .scopes with
  | step node induction =>
      constructor
      · intro isPattern
        cases isPattern with
        | name => exact map_snd_binders_of_isExpression rfl
        | @array span elements each =>
            rw [map_snd_binders_of_open fun _ => rfl, boundNames, boundNamesList_eq_flatMap]
            exact List.flatMap_congr fun element isElement =>
              (induction element isElement).1 (each element isElement)
        | @object span properties each =>
            rw [map_snd_binders_of_open fun _ => rfl, boundNames, boundNamesProperties_eq_flatMap]
            exact List.flatMap_congr fun property isProperty =>
              (induction property isProperty).2 (each property isProperty)
        | @rest span inner isPattern =>
            have below := (induction inner (by simp [parts])).1 isPattern
            rw [map_snd_binders_of_open fun _ => rfl, boundNames]
            simpa [spelled?, parts] using below
        | @defaulted span target value isPattern =>
            have below := (induction target (by simp [parts])).1 isPattern
            rw [map_snd_binders, boundNames]
            simpa [spelled?, shuts, parts] using below
        | @annotated span target type isPattern =>
            have below := (induction target (by simp [parts])).1 isPattern
            rw [map_snd_binders, boundNames]
            simpa [spelled?, shuts, parts] using below
        | assigned isExpression => exact map_snd_binders_of_isExpression isExpression
      · intro isProperty
        cases isProperty with
        | shorthand =>
            rw [map_snd_binders]
            rfl
        | initialized =>
            rw [map_snd_binders]
            rfl
        | @keyValue key value isPattern =>
            have below := (induction value (by simp [parts])).1 isPattern
            rw [map_snd_binders, propertyNames]
            simpa [spelled?, shuts, parts] using below
        | @rest span inner isPattern =>
            have below := (induction inner (by simp [parts])).1 isPattern
            rw [map_snd_binders_of_open fun _ => rfl, propertyNames]
            simpa [spelled?, parts] using below

end Node

end StoreLint
