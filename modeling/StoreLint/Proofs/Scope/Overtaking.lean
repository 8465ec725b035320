import StoreLint.Proofs.Scope.Arrangement
import StoreLint.Proofs.Store.Extraction

/-!
# The order of declarations

A scope lists the declarations of a name in the order in which they are met, and that is
the order of the text with few exceptions.  The names of a list of variables are declared
before anything inside the list is visited, and so are the parameters of a function.  The
members of a class are visited before its heritage, the test of a `do` loop before its
body, and the types of a call or an assertion behind its other parts.  In each of these
places a declaration can overtake another one that stands in front of it.  It takes a
`var` that leaves an expression, which is one in a constructor or in a static block of a
class.

The declarations of all names are in source order exactly if no declaration overtakes
another one of the same name on its way to the same scope.
-/

namespace StoreLint

namespace Node

/-- Among the parts of a node, the first declaration is met before the second one and stands
behind it. -/
inductive PartsOvertake : Node → Reach × Definition → Reach × Definition → Prop where
  | heritage {span : Span} {own : Option Identifier} {members heritage : List Node}
      {first second : Reach × Definition} (inMembers : first ∈ members.flatMap escaping)
      (inHeritage : second ∈ heritage.flatMap escaping) :
      PartsOvertake (.classLike span own members heritage) first second
  | test {span : Span} {heads bodies : List Node} {first second : Reach × Definition}
      (inHeads : first ∈ heads.flatMap escaping) (inBodies : second ∈ bodies.flatMap escaping)
      (behind : second.2.nameSpan.lo ≤ first.2.nameSpan.lo) :
      PartsOvertake (.nested span heads bodies) first second
  | types {node left right : Node} {first second : Reach × Definition}
      (listed : [left, right].Sublist node.partsWithTypes) (inLeft : first ∈ left.escaping)
      (inRight : second ∈ right.escaping) (behind : second.2.nameSpan.lo ≤ first.2.nameSpan.lo) :
      PartsOvertake node first second

/-- Both declarations leave the node, and the first one overtakes the second one inside it. -/
inductive Overtakes : Node → Reach × Definition → Reach × Definition → Prop where
  | declarators {span : Span} {kind : VariableKind} {declarators : List Node}
      {name : Definition} {second : Reach × Definition}
      (isName : name ∈ declarators.flatMap declaratorDefinitions)
      (isInside : second ∈ declarators.flatMap escaping)
      (behind : second.2.nameSpan.lo ≤ name.nameSpan.lo) :
      Overtakes (.variableList span kind declarators)
        ((Node.variableList span kind declarators).reach, name) second
  | head {node head : Node} {first second : Reach × Definition} (isHead : head ∈ node.heads)
      (overtakes : Overtakes head first second) : Overtakes node first second
  | part {node part : Node} {first second : Reach × Definition} (isPart : part ∈ node.inner)
      (overtakes : Overtakes part first second) (firstPasses : node.letsPass first = true)
      (secondPasses : node.letsPass second = true) : Overtakes node first second
  | parts {node : Node} {first second : Reach × Definition}
      (overtake : PartsOvertake node first second) (firstPasses : node.letsPass first = true)
      (secondPasses : node.letsPass second = true) : Overtakes node first second

/-- Both declarations are held by the scope that the node opens, and the first one overtakes the
second one. -/
inductive HoldsOvertaken (kind : ScopeKind) (node : Node) : Definition → Definition → Prop where
  | parameter {name : Definition} {second : Reach × Definition}
      (isName : name ∈ node.ownDefinitions) (isInside : second ∈ node.bindingParts.flatMap escaping)
      (secondEnds : second.1.endsAt kind = true)
      (behind : second.2.nameSpan.lo ≤ name.nameSpan.lo) :
      HoldsOvertaken kind node name second.2
  | part {part : Node} {first second : Reach × Definition} (isPart : part ∈ node.inner)
      (overtakes : part.Overtakes first second) (firstEnds : first.1.endsAt kind = true)
      (secondEnds : second.1.endsAt kind = true) : HoldsOvertaken kind node first.2 second.2
  | parts {first second : Reach × Definition} (overtake : node.PartsOvertake first second)
      (firstEnds : first.1.endsAt kind = true) (secondEnds : second.1.endsAt kind = true) :
      HoldsOvertaken kind node first.2 second.2

end Node

/-- A declaration overtakes another one in a module, and one scope holds both. -/
inductive Overtaken (items : List Node) : Definition → Definition → Prop where
  | atModule {item : Node} {first second : Reach × Definition} (isItem : item ∈ items)
      (overtakes : item.Overtakes first second) : Overtaken items first.2 second.2
  | inScope {node : Node} {kind : ScopeKind} {first second : Definition}
      (isNode : node ∈ Node.nodesOf .scopes items) (opens : node.opening? = some kind)
      (overtaken : node.HoldsOvertaken kind first second) : Overtaken items first second

namespace Node

theorem sublist_pair {α : Type} {first second : α} {left right : List α} (isFirst : first ∈ left)
    (isSecond : second ∈ right) : [first, second].Sublist (left ++ right) :=
  (List.singleton_sublist.mpr isFirst).append (List.singleton_sublist.mpr isSecond)

theorem escaping_sublist_flatMap {nodes : List Node} {node : Node} (member : node ∈ nodes) :
    node.escaping.Sublist (nodes.flatMap escaping) := by
  have single := (List.singleton_sublist.mpr member).flatMap escaping
  rwa [List.flatMap_singleton] at single

theorem partsWithTypes_sublist_inner (node : Node) :
    node.partsWithTypes.Sublist node.inner := by
  cases node with
  | call | wrapped | reference | compound => exact List.Sublist.refl _
  | classLike span own members heritage => exact List.sublist_append_right _ _
  | _ => exact List.nil_sublist _

theorem PartsOvertake.sublist {node : Node} {first second : Reach × Definition}
    (overtake : node.PartsOvertake first second) :
    [first, second].Sublist (node.inner.flatMap escaping) := by
  cases overtake with
  | @heritage span own members heritage _ _ inMembers inHeritage =>
      show List.Sublist _ ((members ++ heritage).flatMap escaping)
      rw [List.flatMap_append]
      exact sublist_pair inMembers inHeritage
  | @test span heads bodies _ _ inHeads inBodies behind =>
      show List.Sublist _ ((heads ++ bodies).flatMap escaping)
      rw [List.flatMap_append]
      exact sublist_pair inHeads inBodies
  | @types _ left right _ _ listed inLeft inRight behind =>
      have escapes := (List.Sublist.trans listed node.partsWithTypes_sublist_inner).flatMap escaping
      have isPair : [first, second].Sublist ([left, right].flatMap escaping) := by
        rw [List.flatMap_cons, List.flatMap_singleton]
        exact sublist_pair inLeft inRight
      exact isPair.trans escapes

theorem sublist_filter_pair {node : Node} {first second : Reach × Definition}
    {passes : Reach × Definition → Bool}
    (sublist : [first, second].Sublist (node.inner.flatMap escaping))
    (firstPasses : passes first = true) (secondPasses : passes second = true) :
    [first, second].Sublist ((node.inner.flatMap escaping).filter passes) := by
  have filtered := sublist.filter passes
  simpa [firstPasses, secondPasses] using filtered

/-- A declaration that overtakes another one is listed in front of it. -/
theorem Overtakes.sublist {node : Node} {first second : Reach × Definition}
    (overtakes : node.Overtakes first second) : [first, second].Sublist node.escaping := by
  induction overtakes with
  | @declarators span kind declarators name second isName isInside behind =>
      rw [escaping_of_not_opening rfl]
      exact sublist_pair (List.mem_map_of_mem isName) isInside
  | @head node head first second isHead overtakes induction =>
      rw [escaping_eq]
      apply List.Sublist.trans _ (List.sublist_append_right _ _)
      apply List.Sublist.trans _ (List.sublist_append_left _ _)
      exact induction.trans (escaping_sublist_flatMap isHead)
  | @part node part first second isPart overtakes firstPasses secondPasses induction =>
      rw [escaping_eq]
      apply List.Sublist.trans _ (List.sublist_append_right _ _)
      apply List.Sublist.trans _ (List.sublist_append_right _ _)
      exact sublist_filter_pair (induction.trans (escaping_sublist_flatMap isPart)) firstPasses
        secondPasses
  | @parts node first second overtake firstPasses secondPasses =>
      rw [escaping_eq]
      apply List.Sublist.trans _ (List.sublist_append_right _ _)
      apply List.Sublist.trans _ (List.sublist_append_right _ _)
      exact sublist_filter_pair overtake.sublist firstPasses secondPasses

variable {node : Node}

theorem PartsOvertake.behind (arranged : node.Arranged)
    {first second : Reach × Definition} (overtake : node.PartsOvertake first second) :
    second.2.nameSpan.lo ≤ first.2.nameSpan.lo := by
  have own := arranged.self
  cases overtake with
  | @heritage span name members heritage _ _ inMembers inHeritage =>
      obtain ⟨member, isMember, inMember⟩ := List.mem_flatMap.mp inMembers
      obtain ⟨head, isHead, inHead⟩ := List.mem_flatMap.mp inHeritage
      have memberArranged := arranged.child (List.mem_append_left heritage isMember)
      have headArranged := arranged.child (List.mem_append_right members isHead)
      have follows := own.parts.2 head isHead member isMember
      exact Nat.le_of_lt (lt_of_mem_escaping headArranged memberArranged follows inHead inMember)
  | test inHeads inBodies behind => exact behind
  | types listed inLeft inRight behind => exact behind

/-- A declaration that overtakes another one stands behind it. -/
theorem Overtakes.behind {first second : Reach × Definition}
    (overtakes : node.Overtakes first second)
    (arranged : node.Arranged) :
    second.2.nameSpan.lo ≤ first.2.nameSpan.lo := by
  induction overtakes with
  | declarators isName isInside behind => exact behind
  | head isHead overtakes induction =>
      exact induction (arranged.child (mem_parts_of_mem_heads isHead))
  | part isPart overtakes firstPasses secondPasses induction =>
      exact induction (arranged.child (mem_parts_of_mem_inner isPart))
  | parts overtake firstPasses secondPasses => exact overtake.behind arranged

/-- What leaves nodes that follow each other is in source order, or overtakes inside a node. -/
theorem Follow.pairwise_escaping {nodes : List Node} (follow : Follow nodes)
    (arranged : ∀ node ∈ nodes, node.Arranged)
    (each : ∀ node ∈ nodes, node.escaping.Pairwise fun first second =>
      node.Overtakes first second ∨ first.2.nameSpan.lo < second.2.nameSpan.lo) :
    (nodes.flatMap escaping).Pairwise fun first second =>
      (∃ node ∈ nodes, node.Overtakes first second) ∨
        first.2.nameSpan.lo < second.2.nameSpan.lo := by
  rw [List.pairwise_flatMap]
  constructor
  · intro node isNode
    apply (each node isNode).imp
    intro first second
    exact Or.imp_left fun overtakes => ⟨node, isNode, overtakes⟩
  · apply follow.imp_of_mem
    intro left right isLeft isRight follows first isFirst second isSecond
    exact .inr (lt_of_mem_escaping (arranged left isLeft) (arranged right isRight) follows isFirst
      isSecond)

theorem follow_heads_append_inner (parts : node.PartsFollow) :
    node.heads = [] ∨ Follow (node.heads ++ node.inner) := by
  rw [heads_append_inner]
  cases node with
  | getter span key types body => exact .inr parts
  | setter span key receiver param body => exact .inr parts
  | switch span discriminant cases => exact .inr parts
  | _ => exact .inl rfl

/-- A name that a node declares around it stands in front of what leaves the parts of the node, or
overtakes it. -/
theorem overtakes_or_lt_of_name (arranged : node.Arranged)
    {name : Definition} (isName : name ∈ node.outerDefinitions) {part : Node}
    (isPart : part ∈ node.parts .scopes) {second : Reach × Definition}
    (inPart : second ∈ part.escaping) :
    node.Overtakes (node.reach, name) second ∨ name.nameSpan.lo < second.2.nameSpan.lo := by
  cases node with
  | variableList span kind declarators =>
      by_cases isBefore : name.nameSpan.lo < second.2.nameSpan.lo
      · exact .inr isBefore
      · left
        exact .declarators isName (List.mem_flatMap.mpr ⟨part, isPart, inPart⟩)
          (Nat.le_of_not_lt isBefore)
  | declaration id value =>
      have own := arranged.self
      obtain rfl : part = value := by simpa [parts] using isPart
      obtain rfl : name = .of id (.ofDeclared part) := by simpa [outerDefinitions] using isName
      -- The name stands in the function or class, but in front of its parts.
      obtain ⟨kind, opens⟩ := Option.isSome_iff_exists.mp own.parts
      obtain ⟨inside, isInside, inInside⟩ := exists_part_of_opening opens inPart
      have isName := own.names id List.mem_cons_self
      have isBehind := own.namesFirst id List.mem_cons_self inside isInside
      have holds := escaping_arranged inside ((arranged.child isPart).child isInside) inInside
      unfold Span.HoldsName at isName holds
      right
      show id.span.lo < second.2.nameSpan.lo
      omega
  | imports span locals source attributes => cases isPart
  | _ => cases isName

/-- What leaves the key of a method stands in front of what leaves its function. -/
theorem lt_of_mem_key {key function : Node} (arranged : (methodEntry key function).Arranged)
    {first second : Reach × Definition} (inKey : first ∈ key.escaping)
    (inFunction : second ∈ function.escaping) :
    first.2.nameSpan.lo < second.2.nameSpan.lo := by
  have isFunction : function ∈ ((methodEntry key function).parts .scopes) := by simp [parts]
  have isKey : key ∈ ((methodEntry key function).parts .scopes) := by simp [parts]
  -- The function covers the key, but its parts stand behind the key.
  obtain ⟨isOpening, behindKey⟩ := arranged.self.parts
  obtain ⟨kind, opens⟩ := Option.isSome_iff_exists.mp isOpening
  obtain ⟨part, isPart, inPart⟩ := exists_part_of_opening opens inFunction
  exact lt_of_mem_escaping (arranged.child isKey) ((arranged.child isFunction).child isPart)
    (behindKey part isPart) inKey inPart

theorem escaping_of_isName {node : Node} (isName : node.isName = true) : node.escaping = [] := by
  cases node with
  | identifier id =>
      simp [escaping_eq, outerDefinitions, heads, inner, parts]
  | _ => cases isName

/-- What leaves parts with types among them is in source order, or overtakes inside a part or among
the parts. -/
theorem pairwise_partsWithTypes
    (each : ∀ part ∈ node.parts .scopes, part.escaping.Pairwise fun first second =>
      part.Overtakes first second ∨ first.2.nameSpan.lo < second.2.nameSpan.lo) :
    (node.partsWithTypes.flatMap escaping).Pairwise fun first second =>
      (∃ part ∈ node.inner, part.Overtakes first second) ∨ node.PartsOvertake first second ∨
        first.2.nameSpan.lo < second.2.nameSpan.lo := by
  rw [List.pairwise_flatMap]
  constructor
  · intro part isPart
    have isInner := node.partsWithTypes_sublist_inner.subset isPart
    apply (each part (mem_parts_of_mem_inner isInner)).imp
    rintro first second (overtakes | isBefore)
    · exact .inl ⟨part, isInner, overtakes⟩
    · exact .inr (.inr isBefore)
  · rw [List.pairwise_iff_forall_sublist]
    intro left right listed first inLeft second inRight
    by_cases isBefore : first.2.nameSpan.lo < second.2.nameSpan.lo
    · exact .inr (.inr isBefore)
    · exact .inr (.inl (.types listed inLeft inRight (Nat.le_of_not_lt isBefore)))

/-- What leaves the parts of a node inside its scope is in source order, or overtakes inside a part
or among the parts. -/
theorem pairwise_inner (arranged : node.Arranged)
    (each : ∀ part ∈ node.parts .scopes, part.escaping.Pairwise fun first second =>
      part.Overtakes first second ∨ first.2.nameSpan.lo < second.2.nameSpan.lo) :
    (node.inner.flatMap escaping).Pairwise fun first second =>
      (∃ part ∈ node.inner, part.Overtakes first second) ∨ node.PartsOvertake first second ∨
        first.2.nameSpan.lo < second.2.nameSpan.lo := by
  have own := arranged.self
  have ofParts : ∀ parts : List Node, parts ⊆ node.inner → Follow parts →
      (parts.flatMap escaping).Pairwise fun first second =>
        (∃ part ∈ node.inner, part.Overtakes first second) ∨ node.PartsOvertake first second ∨
          first.2.nameSpan.lo < second.2.nameSpan.lo := by
    intro parts subset follow
    have inChildren := fun part (isPart : part ∈ parts) =>
      mem_parts_of_mem_inner (subset isPart)
    apply (follow.pairwise_escaping (fun part isPart => arranged.child (inChildren part isPart))
      (fun part isPart => each part (inChildren part isPart))).imp
    rintro first second (⟨part, isPart, overtakes⟩ | isBefore)
    · exact .inl ⟨part, subset isPart, overtakes⟩
    · exact .inr (.inr isBefore)
  have withTypes := pairwise_partsWithTypes each
  cases node with
  | call | wrapped | reference | compound => exact withTypes
  | annotated span target type =>
      rcases own.parts with isName | follow
      · have onlyType : [target, type].flatMap escaping = [type].flatMap escaping := by
          rw [List.flatMap_cons, escaping_of_isName isName, List.nil_append]
        show ([target, type].flatMap escaping).Pairwise _
        rw [onlyType]
        exact ofParts [type] (by simp [inner, parts]) (List.pairwise_singleton _ _)
      · exact ofParts [target, type] (List.Subset.refl _) follow
  | classLike span name members heritage =>
      show ((members ++ heritage).flatMap escaping).Pairwise _
      rw [List.flatMap_append, List.pairwise_append]
      refine ⟨?_, withTypes, ?_⟩
      · exact ofParts members (List.subset_append_left _ _) own.parts.1
      · intro first inMembers second inHeritage
        exact .inr (.inl (.heritage inMembers inHeritage))
  | nested span heads bodies =>
      show ((heads ++ bodies).flatMap escaping).Pairwise _
      rw [List.flatMap_append, List.pairwise_append]
      refine ⟨?_, ?_, ?_⟩
      · exact ofParts heads (List.subset_append_left _ _) own.parts.1
      · exact ofParts bodies (List.subset_append_right _ _) own.parts.2
      · intro first inHeads second inBodies
        by_cases isBefore : first.2.nameSpan.lo < second.2.nameSpan.lo
        · exact .inr (.inr isBefore)
        · exact .inr (.inl (.test inHeads inBodies (Nat.le_of_not_lt isBefore)))
  | methodEntry key function =>
      have ofKey := ofParts [key] (by simp [inner, parts]) (List.pairwise_singleton _ _)
      have ofFunction := ofParts [function] (by simp [inner, parts]) (List.pairwise_singleton _ _)
      show (([key] ++ [function]).flatMap escaping).Pairwise _
      rw [List.flatMap_append, List.pairwise_append]
      refine ⟨ofKey, ofFunction, ?_⟩
      intro first inKey second inFunction
      rw [List.flatMap_singleton] at inKey inFunction
      exact .inr (.inr (lt_of_mem_key arranged inKey inFunction))
  | declaration id value =>
      exact ofParts [value] (by simp [inner, parts]) (List.pairwise_singleton _ _)
  | getter span key types body =>
      exact ofParts body (List.Subset.refl _) (List.pairwise_cons.mp own.parts).2
  | setter span key receiver param body =>
      exact ofParts (param :: body) (List.Subset.refl _) (List.pairwise_cons.mp own.parts).2
  | switch span discriminant cases =>
      exact ofParts cases (List.Subset.refl _) (List.pairwise_cons.mp own.parts).2
  | _ => exact ofParts _ (List.Subset.refl _) own.parts

/-- What leaves the heads of a node is in source order, or overtakes inside the node. -/
theorem pairwise_heads (arranged : node.Arranged)
    (each : ∀ part ∈ node.parts .scopes, part.escaping.Pairwise fun first second =>
      part.Overtakes first second ∨ first.2.nameSpan.lo < second.2.nameSpan.lo) :
    (node.heads.flatMap escaping).Pairwise fun first second =>
      node.Overtakes first second ∨ first.2.nameSpan.lo < second.2.nameSpan.lo := by
  rcases follow_heads_append_inner arranged.self.parts with noHeads | follow
  · rw [noHeads]
    exact List.Pairwise.nil
  · have headsFollow : Follow node.heads := (List.pairwise_append.mp follow).1
    apply (headsFollow.pairwise_escaping
      (fun head isHead => arranged.child (mem_parts_of_mem_heads isHead))
      (fun head isHead => each head (mem_parts_of_mem_heads isHead))).imp
    rintro first second (⟨head, isHead, overtakes⟩ | isBefore)
    · exact .inl (.head isHead overtakes)
    · exact .inr isBefore

/-- What leaves the heads of a node stands in front of what leaves its other parts. -/
theorem lt_of_mem_heads (arranged : node.Arranged) {first second : Reach × Definition}
    (inHeads : first ∈ node.heads.flatMap escaping)
    (inInner : second ∈ node.inner.flatMap escaping) :
    first.2.nameSpan.lo < second.2.nameSpan.lo := by
  obtain ⟨head, isHead, inHead⟩ := List.mem_flatMap.mp inHeads
  obtain ⟨part, isPart, inPart⟩ := List.mem_flatMap.mp inInner
  rcases follow_heads_append_inner arranged.self.parts with noHeads | follow
  · rw [noHeads] at isHead
    cases isHead
  · exact lt_of_mem_escaping (arranged.child (mem_parts_of_mem_heads isHead))
      (arranged.child (mem_parts_of_mem_inner isPart))
      ((List.pairwise_append.mp follow).2.2 head isHead part isPart) inHead inPart

/-- Of two declarations that leave a node, the first one stands in front of the second one or
overtakes it. -/
theorem pairwise_escaping (node : Node) (arranged : node.Arranged) :
    node.escaping.Pairwise fun first second =>
      node.Overtakes first second ∨ first.2.nameSpan.lo < second.2.nameSpan.lo := by
  induction node using inductionOnParts .scopes with
  | step node induction =>
      have each := fun part isPart => induction part isPart (arranged.child isPart)
      obtain ⟨areHeld, follow⟩ := outerDefinitions_arranged arranged
      rw [escaping_eq, List.pairwise_append, List.pairwise_append, List.pairwise_filter]
      refine ⟨?_, ⟨pairwise_heads arranged each, ?_, ?_⟩, ?_⟩
      · rw [List.pairwise_map]
        apply follow.imp_of_mem
        intro first second isFirst isSecond follows
        exact .inr (Nat.lt_of_lt_of_le (areHeld first isFirst).2.1 follows)
      · apply (pairwise_inner arranged each).imp
        rintro first second (⟨part, isPart, overtakes⟩ | overtake | isBefore)
          firstPasses secondPasses
        · exact .inl (.part isPart overtakes firstPasses secondPasses)
        · exact .inl (.parts overtake firstPasses secondPasses)
        · exact .inr isBefore
      · intro first inHeads second inInner
        exact .inr (lt_of_mem_heads arranged inHeads (List.mem_filter.mp inInner).1)
      · intro first isName second inParts
        obtain ⟨name, isOuter, rfl⟩ := List.mem_map.mp isName
        have inChildren : ∃ part ∈ node.parts .scopes, second ∈ part.escaping := by
          rw [List.mem_append, List.mem_filter] at inParts
          rcases inParts with inHeads | ⟨inInner, _⟩
          · obtain ⟨head, isHead, inHead⟩ := List.mem_flatMap.mp inHeads
            exact ⟨head, mem_parts_of_mem_heads isHead, inHead⟩
          · obtain ⟨part, isPart, inPart⟩ := List.mem_flatMap.mp inInner
            exact ⟨part, mem_parts_of_mem_inner isPart, inPart⟩
        obtain ⟨part, isPart, inPart⟩ := inChildren
        exact overtakes_or_lt_of_name arranged isOuter isPart inPart

theorem HoldsOvertaken.sublist {kind : ScopeKind} {first second : Definition}
    (overtaken : node.HoldsOvertaken kind first second) :
    [first, second].Sublist (node.held kind) := by
  have inHeld : ∀ first second : Reach × Definition,
      [first, second].Sublist (node.inner.flatMap escaping) → first.1.endsAt kind = true →
        second.1.endsAt kind = true → [first.2, second.2].Sublist (node.held kind) := by
    intro first second sublist firstEnds secondEnds
    have filtered : [first, second].Sublist ((node.inner.flatMap escaping).filter fun declared =>
        declared.1.endsAt kind) := sublist_filter_pair sublist firstEnds secondEnds
    exact (filtered.map Prod.snd).trans (List.sublist_append_right _ _)
  cases overtaken with
  | @parameter name second isName isInside secondEnds behind =>
      obtain ⟨part, isPart, inPart⟩ := List.mem_flatMap.mp isInside
      have inInner := List.mem_flatMap.mpr ⟨part, node.bindingParts_subset_inner isPart, inPart⟩
      apply sublist_pair isName
      exact List.mem_map_of_mem (List.mem_filter.mpr ⟨inInner, secondEnds⟩)
  | @part part first second isPart overtakes firstEnds secondEnds =>
      exact inHeld first second (overtakes.sublist.trans (escaping_sublist_flatMap isPart))
        firstEnds secondEnds
  | @parts first second overtake firstEnds secondEnds =>
      exact inHeld first second overtake.sublist firstEnds secondEnds

theorem HoldsOvertaken.behind {kind : ScopeKind} {first second : Definition}
    (arranged : node.Arranged)
    (overtaken : node.HoldsOvertaken kind first second) :
    second.nameSpan.lo ≤ first.nameSpan.lo := by
  cases overtaken with
  | parameter isName isInside secondEnds behind => exact behind
  | part isPart overtakes firstEnds secondEnds =>
      exact overtakes.behind (arranged.child (mem_parts_of_mem_inner isPart))
  | parts overtake firstEnds secondEnds => exact overtake.behind arranged

/-- Of two declarations that a scope holds, the first one stands in front of the second one or
overtakes it. -/
theorem pairwise_held {kind : ScopeKind} (arranged : node.Arranged) :
    (node.held kind).Pairwise fun first second =>
      node.HoldsOvertaken kind first second ∨ first.nameSpan.lo < second.nameSpan.lo := by
  obtain ⟨follow, before⟩ := ownDefinitions_arranged arranged
  have each := fun part (isPart : part ∈ node.parts .scopes) =>
    pairwise_escaping part (arranged.child isPart)
  rw [held, List.pairwise_append, List.pairwise_map, List.pairwise_filter]
  refine ⟨follow.imp .inr, ?_, ?_⟩
  · apply (pairwise_inner arranged each).imp
    rintro first second (⟨part, isPart, overtakes⟩ | overtake | isBefore) firstEnds secondEnds
    · exact .inl (.part isPart overtakes firstEnds secondEnds)
    · exact .inl (.parts overtake firstEnds secondEnds)
    · exact .inr isBefore
  · intro name isName definition isHeld
    obtain ⟨second, isFiltered, rfl⟩ := List.mem_map.mp isHeld
    obtain ⟨inInner, secondEnds⟩ := List.mem_filter.mp isFiltered
    by_cases isBefore : name.nameSpan.lo < second.2.nameSpan.lo
    · exact .inr isBefore
    · rcases before name isName second inInner with isInside | isBefore
      · exact .inl (.parameter isName isInside secondEnds (Nat.le_of_not_lt isBefore))
      · exact .inr isBefore

end Node

namespace Variable

/-- The declarations of a variable start one behind the other. -/
def InSourceOrder (found : Variable) : Prop :=
  found.definitions.Pairwise fun first second => first.nameSpan.lo < second.nameSpan.lo

theorem nodup_names_ofDefinitions (definitions : List Definition) :
    ((ofDefinitions definitions).map name).Nodup := by
  have folded : ∀ declared : List Variable, (declared.map name).Nodup →
      ((definitions.foldl (fun declared definition =>
        declareIn definition.name definition declared) declared).map name).Nodup := by
    induction definitions with
    | nil => exact fun declared distinct => distinct
    | cons definition definitions induction =>
        intro declared distinct
        exact induction _ (nodup_names_declareIn definition.name definition distinct)
  exact folded [] List.nodup_nil

/-- A variable holds the declarations of its name. -/
theorem definitions_of_mem_ofDefinitions {definitions : List Definition} {found : Variable}
    (member : found ∈ ofDefinitions definitions) :
    found.definitions = definitions.filter fun definition => definition.name == found.name := by
  apply definitions_of_find?
  have isSome : ((ofDefinitions definitions).find? fun declared =>
      declared.name == found.name).isSome = true :=
    List.find?_isSome.mpr ⟨found, member, beq_self_eq_true found.name⟩
  obtain ⟨other, isOther⟩ := Option.isSome_iff_exists.mp isSome
  have sameName : other.name = found.name := by simpa using List.find?_some isOther
  have distinct := nodup_names_ofDefinitions definitions
  rw [isOther,
    List.inj_on_of_nodup_map distinct (List.mem_of_find?_eq_some isOther) member sameName]

/-- All variables are in source order if declarations of the same name are. -/
theorem forall_inSourceOrder_iff {definitions : List Definition} :
    (∀ found ∈ ofDefinitions definitions, found.InSourceOrder) ↔
      definitions.Pairwise fun first second =>
        first.name = second.name → first.nameSpan.lo < second.nameSpan.lo := by
  constructor
  · intro ordered
    rw [List.pairwise_iff_forall_sublist]
    intro first second sublist sameName
    obtain ⟨found, isFound, _⟩ := exists_find?_of_mem (sublist.subset (List.mem_cons_self))
    have filtered := sublist.filter fun definition => definition.name == first.name
    rw [← definitions_of_find? isFound] at filtered
    have isOrdered := ordered found (List.mem_of_find?_eq_some isFound)
    apply List.pairwise_iff_forall_sublist.mp isOrdered
    simpa [sameName] using filtered
  · intro ordered found member
    rw [InSourceOrder, definitions_of_mem_ofDefinitions member, List.pairwise_filter]
    apply ordered.imp
    intro first second isBefore isFirst isSecond
    apply isBefore
    rw [eq_of_beq isFirst, eq_of_beq isSecond]

end Variable

theorem pairwise_iff_of_overtaking {α : Type} {listed : List α} {definition : α → Definition}
    {overtakes : α → α → Prop}
    (listed_pairwise : listed.Pairwise fun first second => overtakes first second ∨
      (definition first).nameSpan.lo < (definition second).nameSpan.lo)
    (sublist : ∀ first second, overtakes first second → [first, second].Sublist listed)
    (behind : ∀ first second, overtakes first second →
      (definition second).nameSpan.lo ≤ (definition first).nameSpan.lo) :
    (listed.Pairwise fun first second => (definition first).name = (definition second).name →
      (definition first).nameSpan.lo < (definition second).nameSpan.lo) ↔
      ∀ first second, overtakes first second →
        (definition first).name ≠ (definition second).name := by
  constructor
  · intro ordered first second overtaking sameName
    have isBefore := List.pairwise_iff_forall_sublist.mp ordered
      (sublist first second overtaking) sameName
    have isBehind := behind first second overtaking
    omega
  · intro different
    apply listed_pairwise.imp
    rintro first second (overtaking | isBefore) sameName
    · exact absurd sameName (different first second overtaking)
    · exact isBefore

namespace ScopeTree

variable {span : Span} {items : List Node}

theorem forall_root_inSourceOrder_iff (arranged : ArrangedModule items) :
    (∀ found ∈ Variable.ofDefinitions ((items.flatMap Node.escaping).map Prod.snd),
      found.InSourceOrder) ↔
      ∀ item ∈ items, ∀ first second : Reach × Definition, item.Overtakes first second →
        first.2.name ≠ second.2.name := by
  have inItem := fun item (isItem : item ∈ items) =>
    arranged.node (Node.mem_nodesOf_of_mem isItem)
  have listed := arranged.follow.pairwise_escaping inItem
    fun item isItem => item.pairwise_escaping (inItem item isItem)
  rw [Variable.forall_inSourceOrder_iff, List.pairwise_map,
    pairwise_iff_of_overtaking listed]
  · constructor
    · intro different item isItem first second overtakes
      exact different first second ⟨item, isItem, overtakes⟩
    · rintro different first second ⟨item, isItem, overtakes⟩
      exact different item isItem first second overtakes
  · rintro first second ⟨item, isItem, overtakes⟩
    exact overtakes.sublist.trans (Node.escaping_sublist_flatMap isItem)
  · rintro first second ⟨item, isItem, overtakes⟩
    exact overtakes.behind (inItem item isItem)

theorem forall_held_inSourceOrder_iff {node : Node} {kind : ScopeKind}
    (arranged : node.Arranged) :
    (∀ found ∈ Variable.ofDefinitions (node.held kind), found.InSourceOrder) ↔
      ∀ first second, node.HoldsOvertaken kind first second → first.name ≠ second.name := by
  rw [Variable.forall_inSourceOrder_iff]
  exact pairwise_iff_of_overtaking (Node.pairwise_held arranged)
    (fun first second overtaken => overtaken.sublist)
    (fun first second overtaken => overtaken.behind arranged)

/-- The module scope holds what leaves the items, and each other scope what its node holds. -/
theorem forall_scopes_iff {holds : List Variable → Prop} :
    (∀ scope ∈ (build span items).scopes.toList, holds scope.declared) ↔
      holds (Variable.ofDefinitions ((items.flatMap Node.escaping).map Prod.snd)) ∧
        ∀ node ∈ Node.nodesOf .scopes items, ∀ kind, node.opening? = some kind →
          holds (Variable.ofDefinitions (node.held kind)) := by
  have opened := perm_openedScopes_build span items
  have isRoot : (build span items).scopes.toList.head? =
      some { id := root, kind := .module, span, parent := none
             declared := Variable.ofDefinitions ((items.flatMap Node.escaping).map Prod.snd) } := by
    rw [build_eq_ofOutlines]
    rfl
  obtain ⟨others, isList⟩ := List.head?_eq_some_iff.mp isRoot
  rw [isList] at opened ⊢
  rw [List.forall_mem_cons]
  apply and_congr_right
  intro _
  constructor
  · intro each node isNode kind opens
    have isOpened : (kind, node.span, Variable.ofDefinitions (node.held kind)) ∈
        (Node.nodesOf .scopes items).filterMap Node.openedScope? :=
      List.mem_filterMap.mpr ⟨node, isNode, by simp [Node.openedScope?, opens]⟩
    obtain ⟨scope, isScope, same⟩ := List.mem_map.mp (opened.mem_iff.mpr isOpened)
    have isDeclared : scope.declared = Variable.ofDefinitions (node.held kind) :=
      congrArg (fun opened => opened.2.2) same
    exact isDeclared ▸ each scope isScope
  · intro each scope isScope
    have isOpened := opened.mem_iff.mp (List.mem_map_of_mem isScope)
    obtain ⟨node, isNode, opens, _, isDeclared⟩ := Node.exists_opening_of_mem isOpened
    rw [isDeclared]
    exact each node isNode scope.kind opens

theorem forall_inSourceOrder_iff (arranged : ArrangedModule items) :
    (∀ scope ∈ (build span items).scopes.toList, ∀ found ∈ scope.declared, found.InSourceOrder) ↔
      ∀ first second, Overtaken items first second → first.name ≠ second.name := by
  have inScope : ∀ node ∈ Node.nodesOf .scopes items, ∀ kind,
      (∀ found ∈ Variable.ofDefinitions (node.held kind), found.InSourceOrder) ↔
        ∀ first second, node.HoldsOvertaken kind first second → first.name ≠ second.name :=
    fun node isNode kind => forall_held_inSourceOrder_iff (arranged.node isNode)
  apply (@forall_scopes_iff span items fun declared =>
    ∀ found ∈ declared, found.InSourceOrder).trans
  rw [forall_root_inSourceOrder_iff arranged]
  constructor
  · rintro ⟨atModule, inScopes⟩ first second overtaken
    cases overtaken with
    | @atModule item first second isItem overtakes =>
        exact atModule item isItem first second overtakes
    | @inScope node kind first second isNode opens overtaken =>
        exact (inScope node isNode kind).mp (inScopes node isNode kind opens) first second overtaken
  · intro different
    constructor
    · intro item isItem first second overtakes
      exact different _ _ (.atModule isItem overtakes)
    · intro node isNode kind opens
      apply (inScope node isNode kind).mpr
      intro first second overtaken
      exact different _ _ (.inScope isNode opens overtaken)

/-- An identifier refers to the last of the declarations, which stands behind the others if they
are in source order. -/
theorem last_of_resolve
    (ordered : ∀ scope ∈ (build span items).scopes.toList, ∀ found ∈ scope.declared,
      found.InSourceOrder)
    {id : Identifier} {definition : Definition}
    (isResolved : (build span items).resolve id = .ok definition) :
    ∃ found, (build span items).findVariable ((build span items).scopeAt id.span.lo) id.name =
        some found ∧ definition ∈ found.definitions ∧
      ∀ other ∈ found.definitions,
        other = definition ∨ other.nameSpan.lo < definition.nameSpan.lo := by
  obtain ⟨found, isFound, isLast⟩ := resolve_eq_ok_iff.mp isResolved
  have wellFormed := (openAt_build span items).wellFormed
  obtain ⟨_, scope, _, _, _, holds, atScope⟩ :=
    getElem?_of_findVariable wellFormed (wellFormed.scopeAt_lt_size _) isFound
  have isScope : scope ∈ (build span items).scopes.toList := by
    rw [← Array.getElem?_toList] at atScope
    exact List.mem_of_getElem? atScope
  have isOrdered := ordered scope isScope found (List.mem_of_find?_eq_some holds)
  obtain ⟨front, isList⟩ := List.getLast?_eq_some_iff.mp isLast
  rw [Variable.InSourceOrder, isList] at isOrdered
  refine ⟨found, isFound, List.mem_of_getLast? isLast, ?_⟩
  intro other isOther
  rw [isList, List.mem_append, List.mem_singleton] at isOther
  rcases isOther with inFront | same
  · exact .inr ((List.pairwise_append.mp isOrdered).2.2 other inFront definition (by simp))
  · exact .inl same

/-- All variables list their declarations in source order exactly if no declaration overtakes
another one of its name on the way to the same scope.  An identifier then refers to the declaration
that comes last in the source. -/
theorem inSourceOrder_iff_not_overtaken (arranged : ArrangedModule items) :
    ((∀ scope ∈ (build span items).scopes.toList, ∀ found ∈ scope.declared, found.InSourceOrder) ↔
      ∀ first second, Overtaken items first second → first.name ≠ second.name) ∧
    ((∀ first second, Overtaken items first second → first.name ≠ second.name) →
      ∀ id definition, (build span items).resolve id = .ok definition →
        ∃ found, (build span items).findVariable ((build span items).scopeAt id.span.lo) id.name =
            some found ∧ definition ∈ found.definitions ∧
          ∀ other ∈ found.definitions,
            other = definition ∨ other.nameSpan.lo < definition.nameSpan.lo) := by
  refine ⟨forall_inSourceOrder_iff arranged, ?_⟩
  intro different id definition isResolved
  exact last_of_resolve ((forall_inSourceOrder_iff arranged).mpr different) isResolved

/-- `do { var x; } while (class { static { var x; } });` with its first character at position 1.
The test of the loop is visited before its body. -/
def testedLoop : Node :=
  .nested ⟨1, 51⟩
    [.classLike ⟨22, 49⟩ none
      [.block ⟨37, 47⟩
        [.variableList ⟨39, 44⟩ .hoisted [.declarator (.identifier ⟨"x", ⟨43, 44⟩⟩) none]]]
      []]
    [.block ⟨4, 14⟩
      [.variableList ⟨6, 11⟩ .hoisted [.declarator (.identifier ⟨"x", ⟨10, 11⟩⟩) none]]]

/-- A declaration in a block around which there is no function. -/
theorem escaping_block (outer inner : Span) (id : Identifier) :
    (Node.block outer [.variableList inner .hoisted [.declarator (.identifier id) none]]).escaping =
      [(.function, .of id (.binding none))] := by
  simp [Node.escaping_eq, Node.outerDefinitions, Node.declaratorDefinitions, Node.reach, Node.heads,
    Node.inner, Node.parts, Node.untyped, Node.letsPass, Node.opening?, Reach.endsAt,
    ScopeKind.isVarTarget]

theorem overtakes_testedLoop :
    testedLoop.Overtakes (.function, .of ⟨"x", ⟨43, 44⟩⟩ (.binding none))
      (.function, .of ⟨"x", ⟨10, 11⟩⟩ (.binding none)) := by
  refine .parts (.test ?_ ?_ ?_) rfl rfl
  · rw [List.flatMap_singleton, Node.escaping_of_opening rfl]
    simp [Node.heads, Node.inner, Node.parts, escaping_block, Reach.endsAt,
      ScopeKind.isVarTarget]
  · rw [List.flatMap_singleton, escaping_block]
    exact List.mem_singleton_self _
  · decide

/-- The declaration in the test overtakes the one in the body, so a use of the name behind the loop
refers to the one in the body, which does not come last. -/
theorem not_inSourceOrder_testedLoop :
    ArrangedModule [testedLoop] ∧
      ¬(∀ scope ∈ (build ⟨1, 53⟩ [testedLoop]).scopes.toList, ∀ found ∈ scope.declared,
        found.InSourceOrder) ∧
      (build ⟨1, 53⟩ [testedLoop]).resolve ⟨"x", ⟨52, 53⟩⟩ =
        .ok (.of ⟨"x", ⟨10, 11⟩⟩ (.binding none)) := by
  have arranged : ArrangedModule [testedLoop] := by decide
  refine ⟨arranged, ?_, rfl⟩
  rw [(inSourceOrder_iff_not_overtaken arranged).1]
  intro different
  exact different _ _ (.atModule List.mem_cons_self overtakes_testedLoop) rfl

end ScopeTree

end StoreLint
