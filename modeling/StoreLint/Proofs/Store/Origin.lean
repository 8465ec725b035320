import StoreLint.Proofs.Rule.Documentation
import StoreLint.Proofs.Scope.Lexical
import StoreLint.Rule.RootAssets

/-!
# Where the parts of a store come from

A section of a store is followed through bindings to its entries, and an entry to its
function.  Whatever is found on the way is a node of the module that the scope tree was
built for: declarations keep nodes of the module, and taking off wrappers, entering a
literal and looking for a `return` all lead to nodes further inside.
-/

namespace StoreLint

namespace Node

theorem unwrap_mem_nodesOf (node : Node) : node.unwrap ∈ nodesOf .whole [node] := by
  induction node using inductionOnParts .whole with
  | step node induction =>
      rcases wrapped_or_notWrapped node with ⟨span, wrapper, inner, types, rfl⟩ | notWrapped
      · have isChild : inner ∈ (Node.wrapped span wrapper inner types).parts .whole := by
          simp [parts]
        rw [unwrap]
        exact nodesOf_child_subset isChild (induction inner isChild)
      · rw [unwrap_of_notWrapped notWrapped]
        exact mem_nodesOf_of_mem (by simp)

theorem exists_of_firstReturnList {statements : List Node} {value : Option Node}
    (returns : firstReturnList statements = some value) :
    ∃ statement ∈ statements, statement.firstReturn = some value := by
  induction statements with
  | nil => simp [firstReturnList] at returns
  | cons statement statements induction =>
      rw [firstReturnList] at returns
      cases first : statement.firstReturn with
      | none =>
          rw [first] at returns
          obtain ⟨later, isLater, same⟩ := induction returns
          exact ⟨later, by simp [isLater], same⟩
      | some found =>
          rw [first] at returns
          exact ⟨statement, by simp, first.trans returns⟩

theorem firstReturn_mem_nodesOf {statement value : Node}
    (returns : statement.firstReturn = some (some value)) : value ∈ nodesOf .whole [statement] := by
  induction statement using inductionOnParts .whole with
  | step statement induction =>
      have ofParts : ∀ parts : List Node, parts ⊆ statement.parts .whole →
          firstReturnList parts = some (some value) → value ∈ nodesOf .whole [statement] := by
        intro parts subset found
        obtain ⟨part, isPart, same⟩ := exists_of_firstReturnList found
        exact nodesOf_child_subset (subset isPart) (induction part (subset isPart) same)
      cases statement with
      | returns span result =>
          simp only [firstReturn, Option.some.injEq] at returns
          subst returns
          exact mem_nodesOf_of_mem_parts (by simp [parts])
      | block span body => exact ofParts body (by simp [parts]) returns
      | nested span heads bodies => exact ofParts bodies (by simp [parts]) returns
      | loop span heads body =>
          have isChild : body ∈ (Node.loop span heads body).parts .whole := by simp [parts]
          exact nodesOf_child_subset isChild (induction body isChild returns)
      | catches span param body => exact ofParts body (by simp [parts]) returns
      | switch span discriminant cases => exact ofParts cases (by simp [parts]) returns
      | _ => simp [firstReturn] at returns

theorem firstReturnList_mem_nodesOf {statements : List Node} {value : Node}
    (returns : firstReturnList statements = some (some value)) :
    value ∈ nodesOf .whole statements := by
  obtain ⟨statement, isStatement, same⟩ := exists_of_firstReturnList returns
  exact nodesOf_singleton_subset isStatement (firstReturn_mem_nodesOf same)

theorem mem_parts_of_mem_functionBody {function statement : Node}
    (isStatement : statement ∈ function.functionBody) : statement ∈ function.parts .whole := by
  cases function with
  | functionLike span form own params body types =>
      exact List.mem_append_left _ (List.mem_append_right _ isStatement)
  | _ => cases isStatement

theorem nodesOf_parts_subset {node : Node} {parts : List Node}
    (subset : parts ⊆ node.parts .whole) :
    nodesOf .whole parts ⊆ nodesOf .whole [node] := by
  intro inner isInner
  obtain ⟨part, isPart, place⟩ := mem_nodesOf_iff.mp isInner
  exact nodesOf_child_subset (subset isPart) (mem_nodesOf_singleton.mpr place)

theorem nodesOf_functionBody_subset (function : Node) :
    nodesOf .whole function.functionBody ⊆ nodesOf .whole [function] :=
  nodesOf_parts_subset fun _ isStatement => mem_parts_of_mem_functionBody isStatement

theorem returned?_mem_nodesOf {function value : Node} (returns : function.returned? = some value) :
    value ∈ nodesOf .whole [function] := by
  unfold returned? at returns
  split at returns
  · apply nodesOf_functionBody_subset
    exact mem_nodesOf_of_mem (List.mem_of_head? returns)
  · apply nodesOf_functionBody_subset
    exact firstReturnList_mem_nodesOf (Option.join_eq_some_iff.mp returns)
  · cases returns

/-- The node is an entry, other than a spread, of an object literal in one of the trees. -/
def EntryIn (items : List Node) (entry : Node) : Prop :=
  ∃ span entries,
    Node.objectLiteral span entries ∈ nodesOf .whole items ∧ entry ∈ properEntries entries

theorem EntryIn.mem_nodesOf {items : List Node} {entry : Node} (isEntry : EntryIn items entry) :
    entry ∈ nodesOf .whole items := by
  obtain ⟨span, entries, isLiteral, member⟩ := isEntry
  apply nodesOf_subset_of_mem isLiteral
  exact mem_nodesOf_of_mem_parts (List.mem_of_mem_filter member)

theorem EntryIn.of_mem {items : List Node} {node entry : Node} (isEntry : EntryIn [node] entry)
    (isNode : node ∈ nodesOf .whole items) : EntryIn items entry := by
  obtain ⟨span, entries, isLiteral, member⟩ := isEntry
  exact ⟨span, entries, nodesOf_subset_of_mem isNode isLiteral, member⟩

theorem entryIn_of_literalEntries {value entry : Node} (isEntry : entry ∈ value.literalEntries) :
    EntryIn [value] entry := by
  have isUnwrapped := unwrap_mem_nodesOf value
  unfold literalEntries at isEntry
  split at isEntry
  next span entries isLiteral => exact ⟨span, entries, isLiteral ▸ isUnwrapped, isEntry⟩
  next => cases isEntry

theorem entryIn_of_entriesOfValue {value entry : Node} (isEntry : entry ∈ value.entriesOfValue) :
    EntryIn [value] entry := by
  rw [entriesOfValue_eq, List.mem_append] at isEntry
  rcases isEntry with ofLiteral | ofReturned
  · exact entryIn_of_literalEntries ofLiteral
  · cases returns : value.unwrap.returned? with
    | none => simp [returns] at ofReturned
    | some returned =>
        rw [returns] at ofReturned
        apply (entryIn_of_literalEntries ofReturned).of_mem
        exact nodesOf_subset_of_mem (unwrap_mem_nodesOf value) (returned?_mem_nodesOf returns)

theorem asFunction?_mem_nodesOf {value function : Node}
    (isFunction : value.asFunction? = some function) : function ∈ nodesOf .whole [value] := by
  unfold asFunction? at isFunction
  split at isFunction
  · cases isFunction
    exact unwrap_mem_nodesOf value
  · cases isFunction

end Node

/-- The node that a declaration keeps: the function it names, or the initial value. -/
def Definition.kept? (definition : Definition) : Option Node :=
  match definition.kind with
  | .binding init => init
  | .functionName function => some function
  | _ => none

theorem Node.kept?_of_mem_declaratorDefinitions {declarator kept : Node} {definition : Definition}
    (member : definition ∈ declarator.declaratorDefinitions)
    (keeps : definition.kept? = some kept) : kept ∈ nodesOf .whole [declarator] := by
  unfold declaratorDefinitions at member
  split at member
  next target init =>
    split at member
    next id isName =>
      rw [List.mem_singleton.mp member] at keeps
      apply mem_nodesOf_of_mem_parts
      simp [parts, show init = some kept from keeps]
    next =>
      obtain ⟨id, _, rfl⟩ := List.mem_map.mp member
      cases keeps
  next => cases member

theorem Node.kept?_of_mem_bindings {node kept : Node} {definition : Definition}
    (member : definition ∈ node.bindings) (keeps : definition.kept? = some kept) :
    kept ∈ nodesOf .whole [node] := by
  cases node with
  | functionLike span form own params body types =>
      simp only [bindings, ownDefinitions, outerDefinitions, List.append_nil, List.mem_append,
        List.mem_map] at member
      rcases member with ⟨id, _, rfl⟩ | ⟨id, _, rfl⟩
      · cases keeps
        exact mem_nodesOf_of_mem (by simp)
      · cases keeps
  | variableList span kind declarators =>
      simp only [bindings, ownDefinitions, outerDefinitions, List.nil_append,
        List.mem_flatMap] at member
      obtain ⟨declarator, isDeclarator, member⟩ := member
      have isChild : declarator ∈ (Node.variableList span kind declarators).parts .whole :=
        isDeclarator
      exact nodesOf_child_subset isChild (kept?_of_mem_declaratorDefinitions member keeps)
  | declaration id value =>
      simp only [bindings, ownDefinitions, outerDefinitions, List.nil_append,
        List.mem_singleton] at member
      subst member
      have isValue : kept = value := by
        cases value <;> cases keeps <;> rfl
      rw [isValue]
      exact mem_nodesOf_of_mem_parts (by simp [parts])
  | imports span locals source attributes =>
      simp only [bindings, ownDefinitions, outerDefinitions, List.nil_append,
        List.mem_map] at member
      obtain ⟨id, _, rfl⟩ := member
      cases keeps
  | classLike span own members heritage =>
      simp only [bindings, ownDefinitions, outerDefinitions, List.append_nil,
        List.mem_map] at member
      obtain ⟨id, _, rfl⟩ := member
      cases keeps
  | setter span key receiver param body =>
      simp only [bindings, ownDefinitions, outerDefinitions, List.append_nil,
        List.mem_map] at member
      obtain ⟨id, _, rfl⟩ := member
      cases keeps
  | catches span param body =>
      simp only [bindings, ownDefinitions, outerDefinitions, List.append_nil,
        List.mem_map] at member
      obtain ⟨id, _, rfl⟩ := member
      cases keeps
  | _ => simp [bindings, ownDefinitions, outerDefinitions] at member

namespace ScopeTree

section Build

variable {span : Span} {items : List Node}

/-- Every definition of the tree is a binding occurrence of the module. -/
theorem exists_binding_of_mem_scopes {scope : Scope} (isScope : scope ∈ (build span items).scopes)
    {definition : Definition} (isDefinition : definition ∈ scope.definitions) :
    ∃ node ∈ Node.nodesOf .scopes items, definition ∈ node.bindings := by
  rw [← List.mem_flatMap, ← (perm_definitions_build span items).mem_iff]
  exact List.mem_flatMap.mpr ⟨scope, Array.mem_toList_iff.mpr isScope, isDefinition⟩

/-- Every node that a definition of the tree keeps is a node of the module. -/
theorem kept?_of_mem_scopes {scope : Scope} (isScope : scope ∈ (build span items).scopes)
    {definition : Definition} (isDefinition : definition ∈ scope.definitions) {kept : Node}
    (keeps : definition.kept? = some kept) : kept ∈ Node.nodesOf .whole items := by
  obtain ⟨node, isNode, isBinding⟩ := exists_binding_of_mem_scopes isScope isDefinition
  exact Node.nodesOf_subset_of_mem (Node.nodesOf_subset_whole items isNode)
    (Node.kept?_of_mem_bindings isBinding keeps)

theorem exists_scope_of_resolve {id : Identifier} {definition : Definition}
    (resolves : (build span items).resolve id = .ok definition) :
    ∃ scope ∈ (build span items).scopes, definition ∈ scope.definitions := by
  unfold resolve at resolves
  split at resolves
  · cases resolves
  next found isFound =>
    split at resolves
    · cases resolves
    next last isLast =>
      cases resolves
      obtain ⟨scope, inChain, holds⟩ := List.exists_of_findSome?_eq_some isFound
      have wellFormed := (openAt_build span items).wellFormed
      have atScope := wellFormed.getElem?_of_mem_ancestors
        (wellFormed.scopeAt_lt_size id.span.lo) inChain
      refine ⟨scope, Array.mem_of_getElem? atScope, List.mem_flatMap.mpr ?_⟩
      exact ⟨found, List.mem_of_find?_eq_some holds, List.mem_of_getLast? isLast⟩

theorem kept?_of_resolve {id : Identifier} {definition : Definition} {kept : Node}
    (resolves : (build span items).resolve id = .ok definition)
    (keeps : definition.kept? = some kept) : kept ∈ Node.nodesOf .whole items := by
  obtain ⟨scope, isScope, isDefinition⟩ := exists_scope_of_resolve resolves
  exact kept?_of_mem_scopes isScope isDefinition keeps

theorem value?_of_resolve {id : Identifier} {definition : Definition} {value : Node}
    (resolves : (build span items).resolve id = .ok definition)
    (hasValue : definition.value? = .ok (some value)) : value ∈ Node.nodesOf .whole items := by
  unfold Definition.value? at hasValue
  split at hasValue
  next init isBinding =>
    cases hasValue
    exact kept?_of_resolve resolves (by rw [Definition.kept?, isBinding])
  next function isFunction =>
    have isKept := kept?_of_resolve resolves
      (show definition.kept? = some function by rw [Definition.kept?, isFunction])
    split at hasValue
    next returned returns =>
      cases hasValue
      apply Node.nodesOf_subset_of_mem isKept
      exact Node.nodesOf_functionBody_subset function (Node.firstReturnList_mem_nodesOf returns)
    next => cases hasValue
  next => cases hasValue

theorem function?_of_resolve {id : Identifier} {definition : Definition} {function : Node}
    (resolves : (build span items).resolve id = .ok definition)
    (isFunction : definition.function? = some function) : function ∈ Node.nodesOf .whole items := by
  unfold Definition.function? at isFunction
  split at isFunction
  next named isNamed =>
    cases isFunction
    exact kept?_of_resolve resolves (by rw [Definition.kept?, isNamed])
  next init isBinding =>
    have isKept := kept?_of_resolve resolves
      (show definition.kept? = some init by rw [Definition.kept?, isBinding])
    exact Node.nodesOf_subset_of_mem isKept (Node.asFunction?_mem_nodesOf isFunction)
  next => cases isFunction

theorem entryIn_of_entriesOfBinding {id : Identifier} {entries : List Node}
    (found : (build span items).entriesOfBinding id = .ok entries) {entry : Node}
    (isEntry : entry ∈ entries) : Node.EntryIn items entry := by
  obtain ⟨definition, resolves, later⟩ := bind_eq_ok_iff.mp found
  obtain ⟨value, hasValue, gives⟩ := bind_eq_ok_iff.mp later
  cases value with
  | none =>
      cases gives
      cases isEntry
  | some value =>
      cases gives
      exact (Node.entryIn_of_entriesOfValue isEntry).of_mem (value?_of_resolve resolves hasValue)

/-- What an entry stands for are entries of an object literal of the module. -/
theorem entryIn_of_childEntries {entry : Node} (isNode : entry ∈ Node.nodesOf .whole items)
    {children : List Node} (found : (build span items).childEntries entry = .ok children)
    {child : Node} (isChild : child ∈ children) : Node.EntryIn items child := by
  unfold childEntries at found
  split at found
  next key value =>
    have isValue := Node.nodesOf_subset_of_mem isNode
      (Node.mem_nodesOf_of_mem_parts (show value ∈ _ by simp [Node.parts]))
    split at found
    next literalSpan entries isLiteral =>
      cases found
      refine Node.EntryIn.of_mem (Node.entryIn_of_literalEntries ?_) isValue
      rw [Node.literalEntries, isLiteral]
      exact isChild
    next id isName => exact entryIn_of_entriesOfBinding found isChild
    next =>
      cases found
      cases isChild
  next id => exact entryIn_of_entriesOfBinding found isChild
  next =>
    cases found
    cases isChild

/-- The entries that an entry stands for are nodes of the module. -/
theorem childEntries_mem_nodesOf {entry : Node} (isNode : entry ∈ Node.nodesOf .whole items)
    {children : List Node} (found : (build span items).childEntries entry = .ok children)
    {child : Node} (isChild : child ∈ children) : child ∈ Node.nodesOf .whole items :=
  (entryIn_of_childEntries isNode found isChild).mem_nodesOf

theorem functionOfBinding_mem_nodesOf {id : Identifier} {function : Node}
    (found : (build span items).functionOfBinding id = .ok (some function)) :
    function ∈ Node.nodesOf .whole items := by
  obtain ⟨definition, resolves, gives⟩ := bind_eq_ok_iff.mp found
  exact function?_of_resolve resolves (Except.ok.inj gives)

/-- The function that an entry holds is a node of the module. -/
theorem functionOfEntry_mem_nodesOf {entry : Node} (isNode : entry ∈ Node.nodesOf .whole items)
    {function : Node}
    (found : (build span items).functionOfEntry entry = .ok (some function)) :
    function ∈ Node.nodesOf .whole items := by
  unfold functionOfEntry at found
  split at found
  next key method =>
    cases found
    apply Node.nodesOf_subset_of_mem isNode
    exact Node.mem_nodesOf_of_mem_parts (by simp [Node.parts])
  next key value =>
    have isValue := Node.nodesOf_subset_of_mem isNode
      (Node.mem_nodesOf_of_mem_parts (show value ∈ _ by simp [Node.parts]))
    split at found
    next id isName => exact functionOfBinding_mem_nodesOf found
    next =>
      exact Node.nodesOf_subset_of_mem isValue (Node.asFunction?_mem_nodesOf (Except.ok.inj found))
  next id => exact functionOfBinding_mem_nodesOf found
  next => cases found

/-- The handler of an action is the function of the entry, or of an entry inside it. -/
theorem actionHandler_eq_functionOfEntry (tree : ScopeTree) (entry : Node) :
    tree.actionHandler entry = .ok none ∨
      ∃ handler ∈ Node.nodesOf .whole [entry],
        tree.actionHandler entry = tree.functionOfEntry handler := by
  unfold actionHandler
  dsimp only
  split
  next => exact .inr ⟨entry, Node.mem_nodesOf_of_mem (by simp), rfl⟩
  next entries isDescribed =>
    split
    next handler isHandler =>
      refine .inr ⟨handler, ?_, rfl⟩
      -- The entry is described by a literal, and the handler is an entry of the literal.
      split at isDescribed
      next key value =>
        split at isDescribed
        next span entries isLiteral =>
          cases isDescribed
          have isUnwrapped := Node.unwrap_mem_nodesOf value
          rw [isLiteral] at isUnwrapped
          apply Node.nodesOf_subset_of_mem
            (Node.mem_nodesOf_of_mem_parts (show value ∈ _ by simp [Node.parts]))
          apply Node.nodesOf_subset_of_mem isUnwrapped
          exact Node.mem_nodesOf_of_mem_parts (List.mem_of_find?_eq_some isHandler)
        next => cases isDescribed
      next => cases isDescribed
    next => exact .inl rfl

/-- The function that handles an action is a node of the module. -/
theorem actionHandler_mem_nodesOf {entry : Node} (isNode : entry ∈ Node.nodesOf .whole items)
    {function : Node} (found : (build span items).actionHandler entry = .ok (some function)) :
    function ∈ Node.nodesOf .whole items := by
  rcases actionHandler_eq_functionOfEntry (build span items) entry with
    nothing | ⟨handler, isHandler, same⟩
  · rw [nothing] at found
    cases found
  · rw [same] at found
    exact functionOfEntry_mem_nodesOf (Node.nodesOf_subset_of_mem isNode isHandler) found

end Build

end ScopeTree

/-- The entries that rules look at are nodes of the module. -/
theorem entry_mem_nodesOf {items : List Node} {placed : PlacedEntry}
    (isTarget : Target.entry placed ∈ targetsOf items) :
    placed.entry ∈ Node.nodesOf .whole items := by
  obtain ⟨node, isNode, isOwn⟩ := List.mem_flatMap.mp isTarget
  unfold Node.targets at isOwn
  split at isOwn
  next span entries =>
    obtain ⟨other, isPlaced, same⟩ := List.mem_map.mp isOwn
    cases same
    obtain ⟨entry, isEntry, rfl⟩ := List.mem_map.mp isPlaced
    apply Node.nodesOf_subset_of_mem isNode
    exact Node.mem_nodesOf_of_mem_parts (List.mem_of_mem_filter isEntry)
  next => simp at isOwn
  next => cases isOwn

end StoreLint
