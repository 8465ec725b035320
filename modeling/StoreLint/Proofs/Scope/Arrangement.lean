import Mathlib.Data.List.Flatten
import StoreLint.Proofs.Scope.Inside
import StoreLint.Proofs.Scope.Returns

/-!
# How declarations stand in a text

In a tree that was read from a text, the parts of a node stand one behind the other, and
so do the names that it has beside its parts.  So the names that a node declares stand in
the range of the node, in the order in which the node lists them, and what leaves a node
stands in the range of the node.
-/

namespace StoreLint

/-- Whether a name stands in a range and has at least one character. -/
def Span.HoldsName (range name : Span) : Prop :=
  range.lo ≤ name.lo ∧ name.lo < name.hi ∧ name.hi ≤ range.hi

instance (range name : Span) : Decidable (range.HoldsName name) :=
  inferInstanceAs (Decidable (range.lo ≤ name.lo ∧ name.lo < name.hi ∧ name.hi ≤ range.hi))

theorem Span.HoldsName.mono {inner outer name : Span} (holds : inner.HoldsName name)
    (within : outer.lo ≤ inner.lo ∧ inner.hi ≤ outer.hi) : outer.HoldsName name := by
  unfold HoldsName at holds ⊢
  omega

/-- A name in a range ends before a name in a later range starts. -/
theorem Span.HoldsName.hi_le_lo {left right first second : Span} (holds : left.HoldsName first)
    (holdsLater : right.HoldsName second) (follow : left.hi ≤ right.lo) :
    first.hi ≤ second.lo := by
  unfold HoldsName at holds holdsLater
  omega

namespace Node

/-- The names that stand in a node beside its parts. -/
def namesBeside : Node → List Identifier
  | .identifier id => [id]
  | .shorthand id => [id]
  | .imports _ locals _ _ => locals
  | node => node.ownNames

/-- The parts that stand behind the names of a node.  The name of a declared function or class
stands in the function or class. -/
def partsBehind : Node → List Node
  | .declaration _ value => value.parts .scopes
  | node => node.parts .scopes

/-- The parts among which there may be types that stand in front of parts visited before them. -/
def partsWithTypes : Node → List Node
  | .call _ callee args types => callee :: args ++ types
  | .wrapped _ _ inner types => inner :: types
  | .reference _ parts => parts
  | .compound _ parts => parts
  | .classLike _ _ _ heritage => heritage
  | _ => []

/-- Whether the parts of a node stand in the order in which they are visited, types apart.  The
heritage of a class stands in front of the members, a test may stand behind what it repeats, the
function of a method covers the key, and a name covers its type. -/
def PartsFollow : Node → Prop
  | .call .. | .wrapped .. | .reference .. | .compound .. => True
  | .classLike _ _ members heritage =>
      Follow members ∧ ∀ part ∈ heritage, ∀ member ∈ members, part.span.hi ≤ member.span.lo
  | .annotated _ target type => target.isName = true ∨ Follow [target, type]
  | .nested _ heads bodies => Follow heads ∧ Follow bodies
  | .methodEntry key function =>
      function.opening?.isSome = true ∧ ∀ part ∈ function.parts .scopes, key.span.hi ≤ part.span.lo
  | .declaration _ value => value.opening?.isSome = true
  | node => Follow (node.parts .scopes)

/-- Whether the parts and the names of a node stand where they stand in a text. -/
structure Arranges (node : Node) : Prop where
  encloses : ∀ part ∈ node.parts .scopes, node.span.lo ≤ part.span.lo ∧ part.span.hi ≤ node.span.hi
  names : ∀ id ∈ node.namesBeside, node.span.HoldsName id.span
  namesFollow : node.namesBeside.Pairwise fun first second => first.span.hi ≤ second.span.lo
  namesFirst : ∀ id ∈ node.namesBeside, ∀ part ∈ node.partsBehind, id.span.hi ≤ part.span.lo
  parts : node.PartsFollow

instance : (node : Node) → Decidable node.PartsFollow
  | .call .. | .wrapped .. | .reference .. | .compound .. => inferInstanceAs (Decidable True)
  | .classLike _ _ members heritage =>
      inferInstanceAs (Decidable (Follow members ∧
        ∀ part ∈ heritage, ∀ member ∈ members, part.span.hi ≤ member.span.lo))
  | .annotated _ target type =>
      inferInstanceAs (Decidable (target.isName = true ∨ Follow [target, type]))
  | .nested _ heads bodies => inferInstanceAs (Decidable (Follow heads ∧ Follow bodies))
  | .methodEntry key function =>
      inferInstanceAs (Decidable (function.opening?.isSome = true ∧
        ∀ part ∈ function.parts .scopes, key.span.hi ≤ part.span.lo))
  | .declaration _ value => inferInstanceAs (Decidable (value.opening?.isSome = true))
  | .identifier .. | .literal .. | .objectLiteral .. | .arrayLiteral .. | .functionLike ..
  | .member .. | .index .. | .assignment .. | .operation .. | .shorthand .. | .initialized ..
  | .keyValue .. | .getter .. | .setter .. | .spread .. | .plainKey .. | .computedKey ..
  | .arrayPattern .. | .objectPattern .. | .restPattern .. | .defaulted .. | .block ..
  | .returns .. | .loop .. | .catches .. | .switch .. | .variableList .. | .declarator ..
  | .imports .. | .classConstructor .. =>
      inferInstanceAs (Decidable (Follow _))

instance (node : Node) : Decidable node.Arranges :=
  decidable_of_iff
    ((∀ part ∈ node.parts .scopes, node.span.lo ≤ part.span.lo ∧ part.span.hi ≤ node.span.hi) ∧
      (∀ id ∈ node.namesBeside, node.span.HoldsName id.span) ∧
      (node.namesBeside.Pairwise fun first second => first.span.hi ≤ second.span.lo) ∧
      (∀ id ∈ node.namesBeside, ∀ part ∈ node.partsBehind, id.span.hi ≤ part.span.lo) ∧
      node.PartsFollow)
    ⟨fun both => ⟨both.1, both.2.1, both.2.2.1, both.2.2.2.1, both.2.2.2.2⟩,
      fun arranged => ⟨arranged.encloses, arranged.names, arranged.namesFollow,
        arranged.namesFirst, arranged.parts⟩⟩

/-- Whether a node and all nodes inside it stand where they stand in a text. -/
def Arranged (node : Node) : Prop := ∀ inner ∈ nodesOf .scopes [node], inner.Arranges

namespace Arranged

variable {node : Node}

theorem self (arranged : node.Arranged) : node.Arranges :=
  arranged node (mem_nodesOf_of_mem (by simp))

theorem child (arranged : node.Arranged) {child : Node} (isChild : child ∈ node.parts .scopes) :
    child.Arranged :=
  fun inner isInner => arranged inner (nodesOf_child_subset isChild isInner)

end Arranged

end Node

/-- The nodes of a module stand where they stand in a text. -/
structure ArrangedModule (items : List Node) : Prop where
  nodes : ∀ node ∈ Node.nodesOf .scopes items, node.Arranges
  follow : Node.Follow items

instance (items : List Node) : Decidable (ArrangedModule items) :=
  decidable_of_iff ((∀ node ∈ Node.nodesOf .scopes items, node.Arranges) ∧ Node.Follow items)
    ⟨fun both => ⟨both.1, both.2⟩, fun arranged => ⟨arranged.nodes, arranged.follow⟩⟩

theorem ArrangedModule.node {items : List Node} (arranged : ArrangedModule items) {node : Node}
    (isNode : node ∈ Node.nodesOf .scopes items) : node.Arranged :=
  fun inner isInner => arranged.nodes inner (Node.nodesOf_subset_of_mem isNode isInner)

namespace Node

theorem Follow.pairwise_flatMap {α : Type} {place : α → Span} {listed : Node → List α}
    {nodes : List Node} (follow : Follow nodes)
    (holds : ∀ node ∈ nodes, ∀ item ∈ listed node, node.span.HoldsName (place item))
    (each : ∀ node ∈ nodes,
      (listed node).Pairwise fun first second => (place first).hi ≤ (place second).lo) :
    (nodes.flatMap listed).Pairwise fun first second => (place first).hi ≤ (place second).lo := by
  rw [List.pairwise_flatMap]
  refine ⟨each, ?_⟩
  apply follow.imp_of_mem
  intro left right isLeft isRight follows first isFirst second isSecond
  exact (holds left isLeft first isFirst).hi_le_lo (holds right isRight second isSecond) follows

/-- What a pattern or a property of a pattern binds stands in it, one name behind the other. -/
theorem boundNames_arranged (node : Node) (arranged : node.Arranged) :
    ((∀ id ∈ node.boundNames, node.span.HoldsName id.span) ∧
        node.boundNames.Pairwise fun first second => first.span.hi ≤ second.span.lo) ∧
      (∀ id ∈ node.propertyNames, node.span.HoldsName id.span) ∧
        node.propertyNames.Pairwise fun first second => first.span.hi ≤ second.span.lo := by
  induction node using inductionOnParts .scopes with
  | step node induction =>
      have own := arranged.self
      have below := fun child isChild => induction child isChild (arranged.child isChild)
      have bound : ∀ child ∈ node.parts .scopes, ∀ id ∈ child.boundNames,
          node.span.HoldsName id.span :=
        fun child isChild id isBound =>
          ((below child isChild).1.1 id isBound).mono (own.encloses child isChild)
      have ofProperties : ∀ child ∈ node.parts .scopes, ∀ id ∈ child.propertyNames,
          node.span.HoldsName id.span :=
        fun child isChild id isBound =>
          ((below child isChild).2.1 id isBound).mono (own.encloses child isChild)
      cases node with
      | identifier id =>
          have holds := own.names id (by simp [namesBeside])
          simpa [boundNames, propertyNames] using holds
      | shorthand id =>
          have holds := own.names id (by simp [namesBeside])
          simpa [boundNames, propertyNames] using holds
      | initialized span id value =>
          have holds := own.names id (by simp [namesBeside, ownNames])
          simpa [boundNames, propertyNames] using holds
      | arrayPattern span elements =>
          refine ⟨⟨?_, ?_⟩, by simp [propertyNames]⟩
          · intro id isBound
            rw [boundNames, boundNamesList_eq_flatMap] at isBound
            obtain ⟨element, isElement, isBound⟩ := List.mem_flatMap.mp isBound
            exact bound element isElement id isBound
          · rw [boundNames, boundNamesList_eq_flatMap]
            exact Follow.pairwise_flatMap own.parts
              (fun element isElement => (below element isElement).1.1)
              (fun element isElement => (below element isElement).1.2)
      | objectPattern span properties =>
          refine ⟨⟨?_, ?_⟩, by simp [propertyNames]⟩
          · intro id isBound
            rw [boundNames, boundNamesProperties_eq_flatMap] at isBound
            obtain ⟨property, isProperty, isBound⟩ := List.mem_flatMap.mp isBound
            exact ofProperties property isProperty id isBound
          · rw [boundNames, boundNamesProperties_eq_flatMap]
            exact Follow.pairwise_flatMap own.parts
              (fun property isProperty => (below property isProperty).2.1)
              (fun property isProperty => (below property isProperty).2.2)
      | restPattern span inner =>
          have isChild : inner ∈ (Node.restPattern span inner).parts .scopes := by simp [parts]
          have holds := bound inner isChild
          have follow := (below inner isChild).1.2
          simpa [boundNames, propertyNames] using ⟨holds, follow⟩
      | defaulted span target value =>
          have isChild : target ∈ (Node.defaulted span target value).parts .scopes := by
            simp [parts]
          refine ⟨⟨?_, ?_⟩, by simp [propertyNames]⟩
          · exact bound target isChild
          · exact (below target isChild).1.2
      | annotated span target type =>
          have isChild : target ∈ (Node.annotated span target type).parts .scopes := by simp [parts]
          refine ⟨⟨?_, ?_⟩, by simp [propertyNames]⟩
          · exact bound target isChild
          · exact (below target isChild).1.2
      | keyValue key value =>
          have isChild : value ∈ (Node.keyValue key value).parts .scopes := by simp [parts]
          refine ⟨by simp [boundNames], ?_, ?_⟩
          · exact bound value isChild
          · exact (below value isChild).1.2
      | _ => simp [boundNames, propertyNames]

theorem declaratorDefinitions_arranged {node : Node}
    (arranged : node.Arranged) :
    (∀ definition ∈ node.declaratorDefinitions, node.span.HoldsName definition.nameSpan) ∧
      node.declaratorDefinitions.Pairwise fun first second =>
        first.nameSpan.hi ≤ second.nameSpan.lo := by
  have own := arranged.self
  have ofTarget : ∀ target ∈ node.parts .scopes,
      (∀ id ∈ target.boundNames, node.span.HoldsName id.span) ∧
        target.boundNames.Pairwise fun first second => first.span.hi ≤ second.span.lo := by
    intro target isChild
    obtain ⟨⟨holds, follow⟩, _⟩ := boundNames_arranged target (arranged.child isChild)
    exact ⟨fun id isBound => (holds id isBound).mono (own.encloses target isChild), follow⟩
  fun_cases declaratorDefinitions node with
  | case1 target init id isName =>
      have isBound : id ∈ target.boundNames := by
        rw [← boundNames_untyped, isName]
        simp [boundNames]
      have holds := (ofTarget target (by simp [parts])).1 id isBound
      simpa [Definition.of] using holds
  | case2 target init notName =>
      obtain ⟨holds, follow⟩ := ofTarget target (by simp [parts])
      rw [← boundNames_untyped] at holds follow
      simpa [Definition.of, List.pairwise_map] using ⟨holds, follow⟩
  | case3 node notDeclarator => simp

/-- The names that a node declares around it stand in it, one behind the other. -/
theorem outerDefinitions_arranged {node : Node}
    (arranged : node.Arranged) :
    (∀ definition ∈ node.outerDefinitions, node.span.HoldsName definition.nameSpan) ∧
      node.outerDefinitions.Pairwise fun first second =>
        first.nameSpan.hi ≤ second.nameSpan.lo := by
  have own := arranged.self
  cases node with
  | variableList span kind declarators =>
      have ofDeclarator := fun declarator
          (isChild : declarator ∈ (Node.variableList span kind declarators).parts .scopes) =>
        declaratorDefinitions_arranged (arranged.child isChild)
      constructor
      · intro definition isDefinition
        obtain ⟨declarator, isDeclarator, isDefinition⟩ := List.mem_flatMap.mp isDefinition
        exact ((ofDeclarator declarator isDeclarator).1 definition isDefinition).mono
          (own.encloses declarator isDeclarator)
      · exact Follow.pairwise_flatMap own.parts
          (fun declarator isDeclarator => (ofDeclarator declarator isDeclarator).1)
          (fun declarator isDeclarator => (ofDeclarator declarator isDeclarator).2)
  | declaration id value =>
      have holds := own.names id (by simp [namesBeside, ownNames])
      simpa [outerDefinitions, Definition.of] using holds
  | imports span locals source attributes =>
      have holds := own.names
      have follow := own.namesFollow
      simpa [outerDefinitions, Definition.of, List.pairwise_map, namesBeside] using
        And.intro holds follow
  | _ => simp [outerDefinitions]

/-- Whether a declaration from inside goes on outwards past the node. -/
def letsPass (node : Node) (declared : Reach × Definition) : Bool :=
  node.opening?.all fun kind => !declared.1.endsAt kind

theorem escaping_eq (node : Node) :
    node.escaping =
      (node.outerDefinitions.map fun definition => (node.reach, definition)) ++
        (node.heads.flatMap escaping ++ (node.inner.flatMap escaping).filter node.letsPass) := by
  cases opens : node.opening? with
  | none =>
      have passes : node.letsPass = fun _ => true := by
        funext declared
        simp [letsPass, opens]
      rw [escaping_of_not_opening opens, heads_of_not_opening opens, inner_eq_parts opens, passes]
      simp
  | some kind =>
      have passes : node.letsPass = fun declared => !declared.1.endsAt kind := by
        funext declared
        simp [letsPass, opens]
      rw [escaping_of_opening opens, outerDefinitions_of_opening opens, passes]
      simp

/-- A node that opens a scope declares nothing around it. -/
theorem exists_part_of_opening {node : Node} {kind : ScopeKind} (opens : node.opening? = some kind)
    {declared : Reach × Definition} (member : declared ∈ node.escaping) :
    ∃ part ∈ node.parts .scopes, declared ∈ part.escaping := by
  cases mem_escaping_cases member with
  | inl isOwn =>
      rw [outerDefinitions_of_opening opens] at isOwn
      exact absurd isOwn.1 List.not_mem_nil
  | inr inParts => exact inParts

theorem escaping_arranged (node : Node) (arranged : node.Arranged)
    {declared : Reach × Definition} (member : declared ∈ node.escaping) :
    node.span.HoldsName declared.2.nameSpan := by
  induction node using inductionOnParts .scopes with
  | step node induction =>
      cases mem_escaping_cases member with
      | inl isOwn => exact (outerDefinitions_arranged arranged).1 _ isOwn.1
      | inr inParts =>
          obtain ⟨part, isPart, inPart⟩ := inParts
          have holds := induction part isPart (arranged.child isPart) inPart
          exact holds.mono (arranged.self.encloses part isPart)

/-- What leaves a node stands in front of what leaves a later node. -/
theorem lt_of_mem_escaping {left right : Node} (leftArranged : left.Arranged)
    (rightArranged : right.Arranged) (follow : left.span.hi ≤ right.span.lo)
    {first second : Reach × Definition} (isFirst : first ∈ left.escaping)
    (isSecond : second ∈ right.escaping) : first.2.nameSpan.lo < second.2.nameSpan.lo := by
  have holds := escaping_arranged left leftArranged isFirst
  have ends := holds.hi_le_lo (escaping_arranged right rightArranged isSecond) follow
  exact Nat.lt_of_lt_of_le holds.2.1 ends

section OwnNames

/-- The parts of a node whose names belong to the scope that the node opens. -/
def bindingParts : Node → List Node
  | .functionLike _ _ _ params _ _ => params
  | .setter _ _ _ param _ => [param]
  | .catches _ param _ => param.toList
  | _ => []

variable {node : Node}

theorem bindingParts_subset_inner (node : Node) : node.bindingParts ⊆ node.inner := by
  cases node with
  | functionLike | setter | catches => simp [bindingParts, inner, parts]
  | _ => simp [bindingParts]

theorem bindingParts_first (parts : node.PartsFollow) :
    node.bindingParts = [] ∨
      ∃ rest, node.inner = node.bindingParts ++ rest ∧ Follow (node.bindingParts ++ rest) := by
  cases node with
  | functionLike span form own params body types =>
      exact .inr ⟨body, List.append_nil _, by
        simpa [PartsFollow, Node.parts, Extent.aside, bindingParts] using parts⟩
  | setter span key receiver param body => exact .inr ⟨body, rfl, (List.pairwise_cons.mp parts).2⟩
  | catches span param body => exact .inr ⟨body, rfl, parts⟩
  | _ => exact .inl rfl

/-- Parameters stand one behind the other, and in front of what comes from the other parts. -/
theorem parameters_arranged (arranged : node.Arranged) :
    ((node.bindingParts.flatMap boundNames).Pairwise fun first second =>
        first.span.hi ≤ second.span.lo) ∧
      ∀ id ∈ node.bindingParts.flatMap boundNames, id.span.lo < id.span.hi ∧
        ∀ second ∈ node.inner.flatMap escaping,
          second ∈ node.bindingParts.flatMap escaping ∨ id.span.lo < second.2.nameSpan.lo := by
  have own := arranged.self
  rcases bindingParts_first own.parts with noParts | ⟨rest, isInner, follow⟩
  · simp [noParts]
  · have inParts : ∀ part ∈ node.inner, part.Arranged :=
      fun part isPart => arranged.child (mem_parts_of_mem_inner isPart)
    rw [isInner] at inParts ⊢
    have ofParameter := fun part (isPart : part ∈ node.bindingParts) =>
      (boundNames_arranged part (inParts part (List.mem_append_left _ isPart))).1
    obtain ⟨first, _, between⟩ := List.pairwise_append.mp follow
    constructor
    · exact Follow.pairwise_flatMap first (fun part isPart => (ofParameter part isPart).1)
        (fun part isPart => (ofParameter part isPart).2)
    · intro id isBound
      obtain ⟨parameter, isParameter, isBound⟩ := List.mem_flatMap.mp isBound
      have holdsName := (ofParameter parameter isParameter).1 id isBound
      refine ⟨holdsName.2.1, ?_⟩
      intro second inInner
      obtain ⟨part, isPart, inPart⟩ := List.mem_flatMap.mp inInner
      rcases List.mem_append.mp isPart with isFirst | isRest
      · exact .inl (List.mem_flatMap.mpr ⟨part, isFirst, inPart⟩)
      · have follows := between parameter isParameter part isRest
        have holds := escaping_arranged part (inParts part isPart) inPart
        exact .inr (Nat.lt_of_lt_of_le holdsName.2.1 (holdsName.hi_le_lo holds follows))

/-- The name of a function or class that is bound inside it. -/
def innerName : Node → List Identifier
  | .functionLike _ _ own _ _ _ => own.toList
  | .classLike _ own _ _ => own.toList
  | _ => []

theorem nameSpan_ownDefinitions (node : Node) :
    node.ownDefinitions.map Definition.nameSpan =
      (node.innerName ++ node.bindingParts.flatMap boundNames).map Identifier.span := by
  cases node with
  | functionLike span form own params body types =>
      simp [ownDefinitions, innerName, bindingParts, boundNamesList_eq_flatMap, Definition.of,
        Function.comp_def]
  | classLike span own members superclass =>
      simp [ownDefinitions, innerName, bindingParts, Definition.of, Function.comp_def]
  | setter span key receiver param body =>
      simp [ownDefinitions, innerName, bindingParts, Definition.of, Function.comp_def]
  | catches span param body =>
      cases param with
      | none => rfl
      | some param =>
          simp [ownDefinitions, innerName, bindingParts, Definition.of, Function.comp_def]
  | _ => rfl

/-- The inner name stands in front of all parts. -/
theorem innerName_arranged (arranged : node.Arranged) :
    (node.innerName.Pairwise fun first second => first.span.lo < second.span.lo) ∧
      ∀ id ∈ node.innerName, id.span.lo < id.span.hi ∧
        ∀ part ∈ node.inner, id.span.hi ≤ part.span.lo := by
  have own := arranged.self
  have ofName : ∀ id ∈ node.namesBeside, id.span.lo < id.span.hi :=
    fun id isName => (own.names id isName).2.1
  cases node with
  | functionLike span form name params body types =>
      refine ⟨by cases name <;> simp [innerName], ?_⟩
      intro id isName
      exact ⟨ofName id isName, own.namesFirst id isName⟩
  | classLike span name members superclass =>
      refine ⟨by cases name <;> simp [innerName], ?_⟩
      intro id isName
      exact ⟨ofName id isName, own.namesFirst id isName⟩
  | _ => simp [innerName]

/-- The names of the scope of a node stand one behind the other, and in front of what comes from
the other parts of the node. -/
theorem ownDefinitions_arranged (arranged : node.Arranged) :
    (node.ownDefinitions.Pairwise fun first second => first.nameSpan.lo < second.nameSpan.lo) ∧
      ∀ name ∈ node.ownDefinitions, ∀ second ∈ node.inner.flatMap escaping,
        second ∈ node.bindingParts.flatMap escaping ∨ name.nameSpan.lo < second.2.nameSpan.lo := by
  have inParts : ∀ part ∈ node.inner, part.Arranged :=
    fun part isPart => arranged.child (mem_parts_of_mem_inner isPart)
  obtain ⟨single, beforeParts⟩ := innerName_arranged arranged
  obtain ⟨follow, beforeRest⟩ := parameters_arranged arranged
  constructor
  · have spans : ((node.innerName ++ node.bindingParts.flatMap boundNames).map
        Identifier.span).Pairwise fun first second => first.lo < second.lo := by
      rw [List.pairwise_map, List.pairwise_append]
      refine ⟨single, ?_, ?_⟩
      · apply follow.imp_of_mem
        intro first second isFirst isSecond follows
        have nonempty := (beforeRest first isFirst).1
        omega
      · intro name isName id isBound
        obtain ⟨nonempty, before⟩ := beforeParts name isName
        obtain ⟨parameter, isParameter, isBound⟩ := List.mem_flatMap.mp isBound
        have isInner := node.bindingParts_subset_inner isParameter
        have holds := (boundNames_arranged parameter (inParts parameter isInner)).1.1 id isBound
        have behind := before parameter isInner
        unfold Span.HoldsName at holds
        omega
    rw [← nameSpan_ownDefinitions, List.pairwise_map] at spans
    exact spans
  · intro name isName second inInner
    have isSpan : name.nameSpan ∈ node.ownDefinitions.map Definition.nameSpan :=
      List.mem_map_of_mem isName
    rw [nameSpan_ownDefinitions] at isSpan
    obtain ⟨id, isId, sameSpan⟩ := List.mem_map.mp isSpan
    rw [← sameSpan]
    rcases List.mem_append.mp isId with isInnerName | isParameter
    · obtain ⟨nonempty, before⟩ := beforeParts id isInnerName
      obtain ⟨part, isPart, inPart⟩ := List.mem_flatMap.mp inInner
      have holds := escaping_arranged part (inParts part isPart) inPart
      have behind := before part isPart
      unfold Span.HoldsName at holds
      exact .inr (by omega)
    · exact (beforeRest id isParameter).2 second inInner

end OwnNames

end Node

end StoreLint
