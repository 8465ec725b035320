import Mathlib.Data.List.Pairwise
import StoreLint.Proofs.Tree.Parts
import StoreLint.Scope.Resolve

/-!
# How the ranges of nodes lie

In a tree that was read from a text, the parts of a node lie inside its range and
apart from each other.  Only the function of a method reaches further: it starts
with the modifiers and the key of the method and covers them; and the name of a
parameter may take in the type that follows it.  The range of a span is understood
as a set of positions, so an empty span lies everywhere.
-/

namespace StoreLint

namespace Span

/-- Whether every position of the first span lies in the second. -/
def Within (inner outer : Span) : Prop :=
  inner.lo < inner.hi → outer.lo ≤ inner.lo ∧ inner.hi ≤ outer.hi

/-- Whether no position lies in both spans. -/
def Apart (first second : Span) : Prop :=
  min first.hi second.hi ≤ max first.lo second.lo

instance (inner outer : Span) : Decidable (inner.Within outer) :=
  inferInstanceAs (Decidable (inner.lo < inner.hi → outer.lo ≤ inner.lo ∧ inner.hi ≤ outer.hi))

instance (first second : Span) : Decidable (first.Apart second) :=
  inferInstanceAs (Decidable (min first.hi second.hi ≤ max first.lo second.lo))

theorem contains_iff {span : Span} {position : Nat} :
    span.contains position = true ↔ span.lo ≤ position ∧ position < span.hi := by
  simp [contains]

theorem Within.contains {inner outer : Span} (within : inner.Within outer) {position : Nat}
    (member : inner.contains position = true) : outer.contains position = true := by
  rw [contains_iff] at member ⊢
  have bounds := within (by omega)
  omega

theorem Within.refl (span : Span) : span.Within span :=
  fun _ => ⟨Nat.le_refl _, Nat.le_refl _⟩

theorem Within.trans {inner middle outer : Span} (first : inner.Within middle)
    (second : middle.Within outer) : inner.Within outer := by
  intro nonempty
  have bounds := first nonempty
  have further := second (by omega)
  omega

theorem Apart.not_contains {first second : Span} (apart : first.Apart second) {position : Nat}
    (member : first.contains position = true) : second.contains position = false := by
  rw [contains_iff] at member
  rw [Bool.eq_false_iff]
  intro other
  rw [contains_iff] at other
  unfold Apart at apart
  omega

end Span

namespace Node

/-- Whether the parts of a node lie inside its range. -/
def Encloses (node : Node) : Prop :=
  ∀ child ∈ node.parts .whole, child.span.Within node.span

def isName : Node → Bool
  | .identifier _ => true
  | _ => false

/-- Whether two nodes lie apart, or the first is a name that starts in front of the second. -/
def Beside (first second : Node) : Prop :=
  first.span.Apart second.span ∨ first.isName = true ∧ first.span.lo < second.span.lo

/-- Whether the parts of a node lie beside each other; the function of a method covers its key
instead. -/
def Separates : Node → Prop
  | .methodEntry key function => function.isFunction = true ∧ key.span.Within function.span
  | node => (node.parts .whole).Pairwise Beside

instance (node : Node) : Decidable node.Encloses :=
  inferInstanceAs (Decidable (∀ child ∈ node.parts .whole, child.span.Within node.span))

instance (first second : Node) : Decidable (first.Beside second) :=
  inferInstanceAs (Decidable
    (first.span.Apart second.span ∨ first.isName = true ∧ first.span.lo < second.span.lo))

instance (node : Node) : Decidable node.Separates := by
  cases node with
  | methodEntry key function =>
      exact inferInstanceAs (Decidable (function.isFunction = true ∧ key.span.Within function.span))
  | _ => exact inferInstanceAs (Decidable (List.Pairwise Beside _))

variable {extent : Extent}

theorem Encloses.within {node part : Node} (encloses : node.Encloses)
    (isPart : part ∈ node.parts extent) : part.span.Within node.span :=
  encloses part ((parts_sublist_whole extent node).subset isPart)

theorem Separates.pairwise {node : Node} (separates : node.Separates)
    (noMethod : ∀ key function, node ≠ .methodEntry key function) :
    (node.parts extent).Pairwise Beside := by
  apply List.Pairwise.sublist (parts_sublist_whole extent node)
  unfold Separates at separates
  split at separates
  · exact absurd rfl (noMethod _ _)
  · exact separates

/-- All nodes inside a node lie inside its range. -/
theorem within_of_mem_nodesOf {node inner : Node}
    (encloses : ∀ other ∈ nodesOf extent [node], other.Encloses)
    (member : inner ∈ nodesOf extent [node]) : inner.span.Within node.span := by
  induction node using inductionOnParts extent with
  | step node induction =>
      rcases mem_nodesOf_singleton.mp member with rfl | below
      · exact Span.Within.refl _
      · obtain ⟨child, isChild, place⟩ := mem_nodesOf_iff.mp below
        have subset := nodesOf_child_subset isChild
        have insideChild := induction child isChild
          (fun other isOther => encloses other (subset isOther)) (mem_nodesOf_singleton.mpr place)
        exact insideChild.trans ((encloses node (mem_nodesOf_of_mem (by simp))).within isChild)

/-- Whether the position stands in no key of a method.  The function of a method covers the key,
which is outside of it. -/
def OutsideKeys (position : Nat) (items : List Node) : Prop :=
  ∀ key function, .methodEntry key function ∈ nodesOf .whole items →
    key.span.contains position = false

theorem Beside.not_both {first second : Node} (beside : first.Beside second) {position : Nat}
    (atStart : first.isName = true → first.span.lo = position)
    (inFirst : first.span.contains position = true)
    (inSecond : second.span.contains position = true) : False := by
  rcases beside with apart | ⟨isName, before⟩
  · have missing := apart.not_contains inFirst
    rw [inSecond] at missing
    cases missing
  · have start := atStart isName
    have bounds := Span.contains_iff.mp inSecond
    omega

theorem eq_of_contains {parts : List Node} {position : Nat} (beside : parts.Pairwise Beside)
    {first second : Node} (isFirst : first ∈ parts) (isSecond : second ∈ parts)
    (firstStarts : first.isName = true → first.span.lo = position)
    (secondStarts : second.isName = true → second.span.lo = position)
    (inFirst : first.span.contains position = true)
    (inSecond : second.span.contains position = true) : first = second := by
  induction beside with
  | nil => cases isFirst
  | cons head _ induction =>
      rcases List.mem_cons.mp isFirst with rfl | firstLater <;>
        rcases List.mem_cons.mp isSecond with rfl | secondLater
      · rfl
      · exact ((head _ secondLater).not_both firstStarts inFirst inSecond).elim
      · exact ((head _ firstLater).not_both secondStarts inSecond inFirst).elim
      · exact induction firstLater secondLater

theorem child_eq_of_contains {node : Node} {position : Nat} (separates : node.Separates)
    (outsideKeys : OutsideKeys position [node]) {first second : Node}
    (isFirst : first ∈ node.parts extent) (isSecond : second ∈ node.parts extent)
    (firstStarts : first.isName = true → first.span.lo = position)
    (secondStarts : second.isName = true → second.span.lo = position)
    (inFirst : first.span.contains position = true)
    (inSecond : second.span.contains position = true) : first = second := by
  by_cases isMethod : ∃ key function, node = .methodEntry key function
  · obtain ⟨key, function, rfl⟩ := isMethod
    have notInKey := outsideKeys key function (mem_nodesOf_of_mem (by simp))
    have isFunction : ∀ part ∈ (Node.methodEntry key function).parts extent,
        part.span.contains position = true → part = function := by
      intro part isPart inPart
      simp only [parts, List.mem_cons, List.not_mem_nil, or_false] at isPart
      rcases isPart with rfl | rfl
      · rw [notInKey] at inPart
        cases inPart
      · rfl
    rw [isFunction first isFirst inFirst, isFunction second isSecond inSecond]
  · apply eq_of_contains _ isFirst isSecond firstStarts secondStarts inFirst inSecond
    exact separates.pairwise fun key function isNode => isMethod ⟨key, function, isNode⟩

theorem nodesOf_of_isName {node : Node} (isName : node.isName = true) :
    nodesOf extent [node] = [node] := by
  cases node <;> first | rfl | cases isName

/-- A walk that comes to a node at a position enters all nodes around it that contain the
position.  A name is looked at where it starts. -/
theorem mem_walk_of_contains {enter : Node → Bool} {top target node : Node} {position : Nat}
    (encloses : ∀ inner ∈ nodesOf .whole [top], inner.Encloses)
    (separates : ∀ inner ∈ nodesOf .whole [top], inner.Separates)
    (outsideKeys : OutsideKeys position [top]) (isTarget : target ∈ top.walk .whole enter)
    (atStart : target.isName = true → target.span.lo = position)
    (inTarget : target.span.contains position = true) (isNode : node ∈ nodesOf .whole [top])
    (noName : node.isName = false) (inNode : node.span.contains position = true) :
    node ∈ top.walk .whole enter ∨ node ∈ nodesOf .whole [target] := by
  induction top using inductionOnParts .whole with
  | step top induction =>
      obtain ⟨entered, rfl | targetBelow⟩ := mem_walk_iff.mp isTarget
      · exact .inr isNode
      · rcases mem_nodesOf_singleton.mp isNode with rfl | nodeBelow
        · exact .inl (mem_walk_iff.mpr ⟨entered, .inl rfl⟩)
        · obtain ⟨child, isChild, targetInChild⟩ := mem_walkList_iff.mp targetBelow
          obtain ⟨other, isOther, place⟩ := mem_nodesOf_iff.mp nodeBelow
          have targetInside := walk_subset_nodesOf enter child targetInChild
          have nodeInOther := mem_nodesOf_singleton.mpr place
          have subset := nodesOf_child_subset isChild
          have subsetOther := nodesOf_child_subset isOther
          have atChild := (within_of_mem_nodesOf
            (fun inner isInner => encloses inner (subset isInner)) targetInside).contains inTarget
          have atOther := (within_of_mem_nodesOf
            (fun inner isInner => encloses inner (subsetOther isInner)) nodeInOther).contains inNode
          have childStarts : child.isName = true → child.span.lo = position := by
            intro isName
            rw [nodesOf_of_isName isName, List.mem_singleton] at targetInside
            subst targetInside
            exact atStart isName
          have otherStarts : other.isName = true → other.span.lo = position := by
            intro isName
            rw [nodesOf_of_isName isName, List.mem_singleton] at nodeInOther
            rw [nodeInOther, isName] at noName
            cases noName
          have same : other = child := child_eq_of_contains
            (separates top (mem_nodesOf_of_mem (by simp))) outsideKeys isOther isChild otherStarts
            childStarts atOther atChild
          subst same
          rcases induction other isChild (fun inner isInner => encloses inner (subset isInner))
            (fun inner isInner => separates inner (subset isInner))
            (fun key function isMethod => outsideKeys key function (subset isMethod))
            targetInChild nodeInOther with inWalk | inTargetNodes
          · left
            exact mem_walk_iff.mpr
              ⟨entered, .inr (mem_walkList_iff.mpr ⟨other, isChild, inWalk⟩)⟩
          · exact .inr inTargetNodes

end Node

/-- The ranges of a module lie as those of a text do. -/
structure LaidOut (items : List Node) : Prop where
  encloses : ∀ node ∈ Node.nodesOf .whole items, node.Encloses
  separates : ∀ node ∈ Node.nodesOf .whole items, node.Separates
  apart : items.Pairwise fun first second => first.span.Apart second.span

namespace LaidOut

variable {items : List Node}

theorem encloses_of_mem (laidOut : LaidOut items) (extent : Extent) :
    ∀ node ∈ Node.nodesOf extent items, node.Encloses :=
  fun node isNode => laidOut.encloses node (Node.nodesOf_subset_whole items isNode)

theorem separates_of_mem (laidOut : LaidOut items) (extent : Extent) :
    ∀ node ∈ Node.nodesOf extent items, node.Separates :=
  fun node isNode => laidOut.separates node (Node.nodesOf_subset_whole items isNode)

theorem beside (laidOut : LaidOut items) : items.Pairwise Node.Beside :=
  laidOut.apart.imp .inl

end LaidOut

instance (items : List Node) : Decidable (LaidOut items) :=
  decidable_of_iff
    ((∀ node ∈ Node.nodesOf .whole items, node.Encloses) ∧
      (∀ node ∈ Node.nodesOf .whole items, node.Separates) ∧
      items.Pairwise fun first second => first.span.Apart second.span)
    ⟨fun parts => ⟨parts.1, parts.2.1, parts.2.2⟩,
      fun laidOut => ⟨laidOut.encloses, laidOut.separates, laidOut.apart⟩⟩

end StoreLint
