import Mathlib.Data.List.Infix
import Mathlib.Data.List.Lex
import StoreLint.Proofs.Tree.Parts

/-!
# Routes

A route tells where in a module a node stands: the number of an item, the number of a part
of that item, and so on down.  Equal nodes at different places have different routes, so
"each node once" is a statement about routes.

`routesOf` lists the routes of a module: every route that leads to a node.  A walk that
leaves nodes out lists what is at the end of the routes on which it enters everything, and
the walk that enters all nodes lists all of them.  The visiting order is the lexicographic
order of routes: a node comes before what is inside it, and one part of a node with
everything inside it before a later part.
-/

namespace StoreLint

namespace Node

/-- The node that a route leads to inside a node. -/
def at? (node : Node) : List Nat → Option Node
  | [] => some node
  | number :: route =>
      match (node.parts .whole)[number]? with
      | none => none
      | some child => child.at? route

/-- The node that a route leads to in a module. -/
def nodeAt? (items : List Node) : List Nat → Option Node
  | [] => none
  | number :: route =>
      match items[number]? with
      | none => none
      | some item => item.at? route

/-- The routes to a node and to everything inside it, where `route` leads to the node. -/
def routesFrom (route : List Nat) (node : Node) : List (List Nat × Node) :=
  (route, node) :: (node.parts .whole).zipIdx.attach.flatMap fun part =>
    routesFrom (route ++ [part.1.2]) part.1.1
termination_by sizeOf node
decreasing_by
  exact sizeOf_lt_of_mem_parts (List.fst_mem_of_mem_zipIdx part.2)

/-- The routes to the parts of a node and to everything inside them, where `route` leads to the
node. -/
def routesInto (route : List Nat) (parts : List Node) : List (List Nat × Node) :=
  parts.zipIdx.flatMap fun part => part.1.routesFrom (route ++ [part.2])

def routesOf (items : List Node) : List (List Nat × Node) := routesInto [] items

theorem routesFrom_eq (route : List Nat) (node : Node) :
    node.routesFrom route = (route, node) :: routesInto route (node.parts .whole) := by
  conv =>
    rhs
    rw [routesInto, ← List.attach_map_subtype_val (node.parts .whole).zipIdx, List.flatMap_map]
  rw [routesFrom]

theorem walkList_eq_flatMap (enter : Node → Bool) (nodes : List Node) :
    walkList .whole enter nodes = nodes.flatMap (walk .whole enter) := by
  induction nodes with
  | nil => rfl
  | cons node nodes induction => rw [walkList, List.flatMap_cons, induction]

theorem nodeAt?_eq_some_iff {items : List Node} {route : List Nat} {node : Node} :
    nodeAt? items route = some node ↔
      ∃ number item further, items[number]? = some item ∧ route = number :: further ∧
        item.at? further = some node := by
  constructor
  · intro leads
    cases route with
    | nil => cases leads
    | cons number further =>
        rw [nodeAt?] at leads
        cases isItem : items[number]? with
        | none => simp [isItem] at leads
        | some item =>
            rw [isItem] at leads
            exact ⟨number, item, further, isItem, rfl, leads⟩
  · rintro ⟨number, item, further, isItem, rfl, leads⟩
    rw [nodeAt?, isItem]
    exact leads

theorem mem_routesInto_iff {route reached : List Nat} {parts : List Node} {inner : Node}
    (each : ∀ part ∈ parts, ∀ route, (reached, inner) ∈ part.routesFrom route ↔
      ∃ further, reached = route ++ further ∧ part.at? further = some inner) :
    (reached, inner) ∈ routesInto route parts ↔
      ∃ further, reached = route ++ further ∧ nodeAt? parts further = some inner := by
  rw [routesInto, List.mem_flatMap]
  constructor
  · rintro ⟨⟨part, number⟩, isPart, isInside⟩
    obtain ⟨further, rfl, leads⟩ := (each part (List.fst_mem_of_mem_zipIdx isPart) _).mp isInside
    refine ⟨number :: further, by simp, ?_⟩
    have isPart := List.mem_zipIdx_iff_getElem?.mp isPart
    exact nodeAt?_eq_some_iff.mpr ⟨number, part, further, isPart, rfl, leads⟩
  · rintro ⟨further, rfl, leads⟩
    obtain ⟨number, part, further, isPart, rfl, inPart⟩ := nodeAt?_eq_some_iff.mp leads
    refine ⟨(part, number), List.mem_zipIdx_iff_getElem?.mpr isPart, ?_⟩
    apply (each part (List.mem_of_getElem? isPart) _).mpr
    exact ⟨further, by simp, inPart⟩

theorem mem_routesFrom_iff {route reached : List Nat} {node inner : Node} :
    (reached, inner) ∈ node.routesFrom route ↔
      ∃ further, reached = route ++ further ∧ node.at? further = some inner := by
  induction node using inductionOnParts .whole generalizing route with
  | step node induction =>
      rw [routesFrom_eq, List.mem_cons,
        mem_routesInto_iff fun part isPart route => induction part isPart]
      constructor
      · rintro (isNode | ⟨further, isReached, leads⟩)
        · cases isNode
          exact ⟨[], (List.append_nil _).symm, rfl⟩
        · cases further with
          | nil => cases leads
          | cons number further => exact ⟨number :: further, isReached, leads⟩
      · rintro ⟨further, rfl, leads⟩
        cases further with
        | nil =>
            cases leads
            exact .inl (by rw [List.append_nil])
        | cons number further => exact .inr ⟨number :: further, rfl, leads⟩

/-- A route is listed with the node it leads to, and no other route is listed. -/
theorem mem_routesOf_iff {items : List Node} {route : List Nat} {node : Node} :
    (route, node) ∈ routesOf items ↔ nodeAt? items route = some node := by
  rw [routesOf, mem_routesInto_iff fun item _ route => mem_routesFrom_iff]
  constructor
  · rintro ⟨further, rfl, leads⟩
    exact leads
  · intro leads
    exact ⟨route, rfl, leads⟩

/-- Whether a walk that starts at a node enters every node on a route, the one at its end too. -/
def entersTo (enter : Node → Bool) (node : Node) (route : List Nat) : Bool :=
  route.inits.all fun outer => (node.at? outer).all enter

/-- Whether a walk over a module enters every node on a route, the one at its end too. -/
def reaches (enter : Node → Bool) (items : List Node) (route : List Nat) : Bool :=
  route.inits.all fun outer => (nodeAt? items outer).all enter

theorem entersTo_nil (enter : Node → Bool) (node : Node) : node.entersTo enter [] = enter node := by
  simp [entersTo, at?]

theorem entersTo_cons {node child : Node} {number : Nat}
    (isChild : (node.parts .whole)[number]? = some child) (enter : Node → Bool) (route : List Nat) :
    node.entersTo enter (number :: route) = (enter node && child.entersTo enter route) := by
  simp [entersTo, at?, isChild, Function.comp_def]

theorem reaches_cons {items : List Node} {item : Node} {number : Nat}
    (isItem : items[number]? = some item) (enter : Node → Bool) (route : List Nat) :
    reaches enter items (number :: route) = item.entersTo enter route := by
  simp [reaches, entersTo, nodeAt?, isItem, Function.comp_def]

theorem reaches_iff {enter : Node → Bool} {items : List Node} {route : List Nat} :
    reaches enter items route = true ↔
      ∀ outer, outer <+: route → ∀ node, nodeAt? items outer = some node → enter node = true := by
  simp only [reaches, List.all_eq_true, List.mem_inits, Option.all_eq_true]

theorem map_snd_filter_routesInto {enter : Node → Bool} {keep : List Nat → Bool}
    {route : List Nat} {parts : List Node}
    (each : ∀ (part : Node) (number : Nat), parts[number]? = some part →
      ((part.routesFrom (route ++ [number])).filter fun place => keep place.1).map Prod.snd =
        part.walk .whole enter) :
    ((routesInto route parts).filter fun place => keep place.1).map Prod.snd =
      walkList .whole enter parts := by
  have same : parts.zipIdx.flatMap
        (fun part => ((part.1.routesFrom (route ++ [part.2])).filter
          fun place => keep place.1).map Prod.snd) =
      parts.zipIdx.flatMap fun part => part.1.walk .whole enter := by
    apply List.flatMap_congr
    rintro ⟨part, number⟩ isPart
    exact each part number (List.mem_zipIdx_iff_getElem?.mp isPart)
  rw [routesInto, List.filter_flatMap, List.map_flatMap, same, ← List.flatMap_map,
    List.zipIdx_map_fst, walkList_eq_flatMap]

/-- A walk from a node lists what is at the end of the routes it enters. -/
theorem map_snd_filter_routesFrom {enter : Node → Bool} {keep : List Nat → Bool} {node : Node}
    {route : List Nat}
    (same : ∀ further inner, node.at? further = some inner →
      keep (route ++ further) = node.entersTo enter further) :
    ((node.routesFrom route).filter fun place => keep place.1).map Prod.snd =
      node.walk .whole enter := by
  -- The node is any node of a module, so `keep` is known only for routes that go through it.
  induction node using inductionOnParts .whole generalizing route with
  | step node induction =>
      have atNode : keep route = enter node := by
        have atEnd := same [] node rfl
        rwa [List.append_nil, entersTo_nil] at atEnd
      have below : ∀ child number, (node.parts .whole)[number]? = some child → ∀ further inner,
          child.at? further = some inner →
            keep (route ++ [number] ++ further) =
              (enter node && child.entersTo enter further) := by
        intro child number isChild further inner leads
        rw [← entersTo_cons isChild, List.append_assoc]
        apply same (number :: further) inner
        rw [at?, isChild]
        exact leads
      rw [routesFrom_eq, List.filter_cons, walk_eq, entering]
      dsimp only
      rw [atNode]
      cases entered : enter node with
      | true =>
          have parts : ((routesInto route (node.parts .whole)).filter fun place =>
              keep place.1).map Prod.snd = walkList .whole enter (node.parts .whole) := by
            apply map_snd_filter_routesInto
            intro child number isChild
            apply induction child (List.mem_of_getElem? isChild)
            intro further inner leads
            rw [below child number isChild further inner leads, entered, Bool.true_and]
          rw [if_pos rfl, if_pos rfl, List.map_cons, parts]
      | false =>
          -- A node that is left out is on every route into it.
          have none : ∀ place ∈ routesInto route (node.parts .whole), ¬keep place.1 = true := by
            rintro ⟨reached, inner⟩ isInside
            obtain ⟨further, rfl, leads⟩ :=
              (mem_routesInto_iff fun part _ route => mem_routesFrom_iff).mp isInside
            obtain ⟨number, child, further, isChild, rfl, inChild⟩ := nodeAt?_eq_some_iff.mp leads
            have notEntered := below child number isChild further inner inChild
            rw [entered, Bool.false_and, List.append_assoc] at notEntered
            exact Bool.eq_false_iff.mp notEntered
          rw [if_neg Bool.false_ne_true, if_neg Bool.false_ne_true, List.filter_eq_nil_iff.mpr none,
            List.map_nil]

/-- A walk lists what is at the end of the routes on which it enters everything. -/
theorem map_snd_filter_routesOf (enter : Node → Bool) (items : List Node) :
    ((routesOf items).filter fun place => reaches enter items place.1).map Prod.snd =
      walkList .whole enter items := by
  apply map_snd_filter_routesInto
  intro item number isItem
  apply map_snd_filter_routesFrom
  intro further inner _
  exact reaches_cons isItem enter further

/-- The listed nodes are those of the module. -/
theorem map_snd_routesOf (items : List Node) :
    (routesOf items).map Prod.snd = nodesOf .whole items := by
  have all : ∀ place ∈ routesOf items, reaches (fun _ => true) items place.1 = true := by
    intro place _
    exact reaches_iff.mpr fun outer _ node _ => rfl
  rw [nodesOf, ← map_snd_filter_routesOf, List.filter_eq_self.mpr all]

end Node

theorem lt_append_of_ne_nil {route further : List Nat} (isFurther : further ≠ []) :
    route < route ++ further := by
  cases further with
  | nil => exact absurd rfl isFurther
  | cons number further =>
      have inside : route ++ [] < route ++ number :: further := List.Lex.append_left _ .nil route
      rwa [List.append_nil] at inside

theorem append_lt_append_of_lt {left right : Nat} (isEarlier : left < right)
    (route first second : List Nat) : route ++ left :: first < route ++ right :: second :=
  List.Lex.append_left _ (.rel isEarlier) route

theorem pairwise_zipIdx {α : Type} (items : List α) :
    items.zipIdx.Pairwise fun first second => first.2 < second.2 := by
  rw [← List.pairwise_map (f := Prod.snd) (R := (· < ·)), List.zipIdx_map_snd]
  exact List.pairwise_lt_range' 1

namespace Node

theorem pairwise_routesInto {route : List Nat} {parts : List Node}
    (each : ∀ part ∈ parts, ∀ route,
      (part.routesFrom route).Pairwise fun first second => first.1 < second.1) :
    (routesInto route parts).Pairwise fun first second => first.1 < second.1 := by
  rw [routesInto, List.pairwise_flatMap]
  constructor
  · intro part isPart
    exact each part.1 (List.fst_mem_of_mem_zipIdx isPart) _
  · apply (pairwise_zipIdx parts).imp
    rintro ⟨left, leftNumber⟩ ⟨right, rightNumber⟩ isEarlier ⟨first, _⟩ isFirst ⟨second, _⟩ isSecond
    obtain ⟨firstFurther, rfl, _⟩ := mem_routesFrom_iff.mp isFirst
    obtain ⟨secondFurther, rfl, _⟩ := mem_routesFrom_iff.mp isSecond
    rw [List.append_assoc, List.append_assoc]
    exact append_lt_append_of_lt isEarlier route firstFurther secondFurther

theorem pairwise_routesFrom (route : List Nat) (node : Node) :
    (node.routesFrom route).Pairwise fun first second => first.1 < second.1 := by
  induction node using inductionOnParts .whole generalizing route with
  | step node induction =>
      rw [routesFrom_eq, List.pairwise_cons]
      constructor
      · rintro ⟨reached, inner⟩ isInside
        obtain ⟨further, rfl, leads⟩ :=
          (mem_routesInto_iff fun part _ route => mem_routesFrom_iff).mp isInside
        apply lt_append_of_ne_nil
        rintro rfl
        cases leads
      · exact pairwise_routesInto induction

/-- Routes are listed in visiting order. -/
theorem pairwise_routesOf (items : List Node) :
    (routesOf items).Pairwise fun first second => first.1 < second.1 := by
  apply pairwise_routesInto
  intro item _ route
  exact pairwise_routesFrom route item

end Node

end StoreLint
