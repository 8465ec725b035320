import StoreLint.Proofs.Scope.Innermost
import StoreLint.Proofs.Scope.Inside
import StoreLint.Proofs.Store.Origin

/-!
# Uses of a named context and the scope tree

An action that gives its context a name is searched for uses of the name.  The search
leaves out the functions inside the action whose parameters take the name; any other
declaration of the name inside the action is not looked at.  `lookup_of_context_use`
compares this with the scope tree: from a use that is reported, the name leads to the
context parameter of the action, or to a declaration inside the action that is no
parameter of a function.
-/

namespace StoreLint

namespace Node

/-- The name that an expression is. -/
def asName? (node : Node) : Option Identifier :=
  match node.unwrap with
  | .identifier id => some id
  | _ => none

/-- The name whose value a node reads a property of or takes apart. -/
def usedName? : Node → Option Identifier
  | .member _ object _ => object.asName?
  | .index _ object _ => object.asName?
  | .declarator _ (some init) => init.asName?
  | .assignment _ _ value => value.asName?
  | _ => none

/-- The name that a context parameter gives to the context. -/
def contextPattern? : Node → Option Identifier
  | .identifier id => some id
  | .defaulted _ target _ => target.contextPattern?
  | .annotated _ target _ => target.contextPattern?
  | _ => none

/-- The name that a function gives to its context. -/
def contextName? (function : Node) : Option Identifier :=
  function.parameters.head?.bind contextPattern?

/-- Whether a node is the setter of an object literal. -/
def isSetter : Node → Bool
  | .setter _ _ _ _ _ => true
  | _ => false

theorem exists_asName_of_isContext {name : String} {node : Node}
    (isContext : node.isContext name = true) : ∃ id, node.asName? = some id ∧ id.name = name := by
  unfold Node.isContext at isContext
  split at isContext
  next id isName => exact ⟨id, by rw [asName?, isName], eq_of_beq isContext⟩
  next => cases isContext

theorem isContext_of_accessedAsset {name : String} {span : Span} {object : Node}
    {accessed : Option String} {site : AssetSite}
    (isSite : site ∈ accessedAsset name span object accessed) : object.isContext name = true := by
  unfold accessedAsset at isSite
  split at isSite
  · split at isSite
    next both => exact (Bool.and_eq_true_iff.mp both).2
    next => cases isSite
  · cases isSite

/-- A use of an asset is made through the name of the context, in a part of the node. -/
theorem exists_usedName_of_mem_assetSites {name : String} {node : Node} {site : AssetSite}
    (isSite : site ∈ node.assetSites name) :
    ∃ id, node.usedName? = some id ∧ id.name = name := by
  unfold assetSites at isSite
  split at isSite
  · exact exists_asName_of_isContext (isContext_of_accessedAsset isSite)
  · exact exists_asName_of_isContext (isContext_of_accessedAsset isSite)
  · split at isSite
    · split at isSite
      next isContext => exact exists_asName_of_isContext isContext
      next => cases isSite
    · cases isSite
  · split at isSite
    next isContext => exact exists_asName_of_isContext isContext
    next => cases isSite
  · cases isSite

theorem exists_child_of_usedName? {node : Node} {id : Identifier}
    (isUsed : node.usedName? = some id) :
    ∃ child ∈ node.parts .whole, child.asName? = some id := by
  unfold usedName? at isUsed
  split at isUsed
  next object _ => exact ⟨object, by simp [parts], isUsed⟩
  next object _ => exact ⟨object, by simp [parts], isUsed⟩
  next init => exact ⟨init, by simp [parts], isUsed⟩
  next value => exact ⟨value, by simp [parts], isUsed⟩
  next => cases isUsed

theorem keepsContext_of_asName? {name : String} {node : Node} {id : Identifier}
    (isName : node.asName? = some id) : node.keepsContext name = true := by
  cases node with
  | functionLike span form own params body types => cases isName
  | _ => rfl

/-- The search for uses also comes to the name that is used. -/
theorem identifier_mem_walkList {name : String} {nodes : List Node} {node : Node} {id : Identifier}
    (member : node ∈ walkList .whole (keepsContext name) nodes)
    (isUsed : node.usedName? = some id) :
    .identifier id ∈ walkList .whole (keepsContext name) nodes := by
  have unwrapped : ∀ child : Node, child ∈ walkList .whole (keepsContext name) nodes →
      child.asName? = some id → .identifier id ∈ walkList .whole (keepsContext name) nodes := by
    intro child
    induction child using inductionOnParts .whole with
    | step child induction =>
        intro inWalk isName
        rcases wrapped_or_notWrapped child with ⟨span, wrapper, inner, types, rfl⟩ | notWrapped
        · rw [asName?, unwrap, ← asName?] at isName
          have isInner : inner ∈ (Node.wrapped span wrapper inner types).parts .whole := by
            simp [parts]
          apply induction inner isInner _ isName
          exact mem_walkList_of_mem_parts inWalk isInner (keepsContext_of_asName? isName)
        · rw [asName?, unwrap_of_notWrapped notWrapped] at isName
          split at isName
          next =>
            cases isName
            exact inWalk
          next => cases isName
  obtain ⟨child, isChild, isName⟩ := exists_child_of_usedName? isUsed
  apply unwrapped child _ isName
  exact mem_walkList_of_mem_parts member isChild (keepsContext_of_asName? isName)

theorem parameterAssets_of_contextPattern? {pattern : Node} {context : Identifier}
    (isPattern : pattern.contextPattern? = some context) (body : List Node) :
    pattern.parameterAssets body = contextAssets context.name body := by
  fun_induction contextPattern? pattern with
  | case1 id =>
      cases isPattern
      rw [parameterAssets]
  | case2 span target value induction =>
      rw [parameterAssets]
      exact induction isPattern
  | case3 span target type induction =>
      rw [parameterAssets]
      exact induction isPattern
  | case4 => cases isPattern

theorem mem_boundNames_of_contextPattern? {pattern : Node} {context : Identifier}
    (isPattern : pattern.contextPattern? = some context) : context ∈ pattern.boundNames := by
  fun_induction contextPattern? pattern with
  | case1 id =>
      cases isPattern
      simp [boundNames]
  | case2 span target value induction =>
      rw [boundNames]
      exact induction isPattern
  | case3 span target type induction =>
      rw [boundNames]
      exact induction isPattern
  | case4 => cases isPattern

/-- For an action that names its context, the uses are those that the search finds. -/
theorem actionAssets_of_contextName? {function : Node} {context : Identifier}
    (isContext : function.contextName? = some context) :
    function.actionAssets = contextAssets context.name function.functionBody := by
  rw [contextName?] at isContext
  rw [actionAssets]
  cases listed : function.parameters with
  | nil => simp [listed] at isContext
  | cons first rest =>
      rw [listed] at isContext
      exact parameterAssets_of_contextPattern? isContext _

theorem mem_ownDefinitions_of_contextName? {function : Node} {context : Identifier}
    (isContext : function.contextName? = some context) :
    Definition.of context .parameter ∈ function.ownDefinitions ∧
      function.opening? = some .function := by
  cases function with
  | functionLike span form own params body types =>
      refine ⟨?_, rfl⟩
      cases params with
      | nil => cases isContext
      | cons first rest =>
          apply List.mem_append_right
          apply List.mem_map_of_mem
          rw [boundNamesList]
          exact List.mem_append_left _ (mem_boundNames_of_contextPattern? isContext)
  | _ => cases isContext

theorem kind_ne_parameter_of_mem_outerDefinitions {node : Node} {definition : Definition}
    (member : definition ∈ node.outerDefinitions) : definition.kind ≠ .parameter := by
  unfold outerDefinitions at member
  split at member
  next declarators =>
    obtain ⟨declarator, _, isDeclared⟩ := List.mem_flatMap.mp member
    unfold declaratorDefinitions at isDeclared
    split at isDeclared
    · split at isDeclared
      · rw [List.mem_singleton.mp isDeclared]
        simp [Definition.of]
      · obtain ⟨id, _, rfl⟩ := List.mem_map.mp isDeclared
        simp [Definition.of]
    · cases isDeclared
  next id value =>
    rw [List.mem_singleton.mp member]
    cases value <;> simp [Definition.of, DefinitionKind.ofDeclared]
  next locals source =>
    obtain ⟨id, _, rfl⟩ := List.mem_map.mp member
    simp [Definition.of]
  next => cases member

/-- Parameters stay in the function they belong to. -/
theorem kind_ne_parameter_of_mem_escaping (node : Node) {definition : Reach × Definition}
    (member : definition ∈ node.escaping) : definition.2.kind ≠ .parameter := by
  induction node using inductionOnParts .scopes with
  | step node induction =>
      cases mem_escaping_cases member with
      | inl isOwn => exact kind_ne_parameter_of_mem_outerDefinitions isOwn.1
      | inr inParts =>
          obtain ⟨part, isPart, inPart⟩ := inParts
          exact induction part isPart inPart

/-- Among the nodes that the search enters, only a setter declares the name of the context as a
parameter. -/
theorem isSetter_of_held_parameter {name : String} {node : Node} {kind : ScopeKind}
    (keeps : node.keepsContext name = true) {definition : Definition}
    (isHeld : definition ∈ node.held kind) (isName : definition.name = name)
    (isParameter : definition.kind = .parameter) : node.isSetter = true := by
  rw [held, List.mem_append, List.mem_map] at isHeld
  rcases isHeld with isOwn | ⟨escaped, isEscaped, rfl⟩
  · unfold ownDefinitions at isOwn
    split at isOwn
    next span form own params body =>
      rcases List.mem_append.mp isOwn with isOwnName | isParam
      · obtain ⟨id, _, rfl⟩ := List.mem_map.mp isOwnName
        cases isParameter
      · obtain ⟨id, isBound, rfl⟩ := List.mem_map.mp isParam
        rw [keepsContext, anyBinds_iff.mpr ⟨id, isBound, isName⟩] at keeps
        cases keeps
    next =>
      obtain ⟨id, _, rfl⟩ := List.mem_map.mp isOwn
      cases isParameter
    next => rfl
    next =>
      obtain ⟨id, _, rfl⟩ := List.mem_map.mp isOwn
      cases isParameter
    next => cases isOwn
  · obtain ⟨part, _, inPart⟩ := List.mem_flatMap.mp (List.mem_of_mem_filter isEscaped)
    exact absurd isParameter (kind_ne_parameter_of_mem_escaping part inPart)

end Node

/-- A function that handles an action of a store of the module. -/
def HandlesAction (span : Span) (items : List Node) (function : Node) : Prop :=
  ∃ placed entries entry, Target.entry placed ∈ targetsOf items ∧ placed.isActions = true ∧
    (ScopeTree.build span items).childEntries placed.entry = .ok entries ∧ entry ∈ entries ∧
    (ScopeTree.build span items).actionHandler entry = .ok (some function)

theorem HandlesAction.mem_nodesOf {span : Span} {items : List Node} {function : Node}
    (handles : HandlesAction span items function) : function ∈ Node.nodesOf .whole items := by
  obtain ⟨placed, entries, entry, isTarget, _, found, isEntry, handled⟩ := handles
  have isNode := ScopeTree.childEntries_mem_nodesOf (entry_mem_nodesOf isTarget) found isEntry
  exact ScopeTree.actionHandler_mem_nodesOf isNode handled

/-- The variable is the one that `name` has in the scope of the node, which is around the position.
It is no parameter, unless the node is a setter. -/
structure Node.Redeclares (node : Node) (name : String) (position : Nat) (found : Variable) :
    Prop where
  contains : node.span.contains position = true
  declares : ∃ kind, node.opening? = some kind ∧
    (Variable.ofDefinitions (node.held kind)).find? (fun declared => declared.name == name) =
      some found
  noParameter : ∀ definition ∈ found.definitions, definition.kind = .parameter →
    node.isSetter = true

section Search

variable {span : Span} {items : List Node} {function : Node} {context : Identifier}

/-- The nodes around a name that the search comes to are entered by the search. -/
theorem mem_walkList_of_contains (laidOut : LaidOut items)
    (isNode : function ∈ Node.nodesOf .whole items) {id : Identifier}
    (outsideKeys : Node.OutsideKeys id.span.lo items)
    (isUsed : .identifier id ∈
      Node.walkList .whole (Node.keepsContext context.name) function.functionBody)
    (atName : id.span.contains id.span.lo = true) {node : Node}
    (isInner : node ∈ Node.nodesOf .whole function.inner) {kind : ScopeKind}
    (opens : node.opening? = some kind) (contains : node.span.contains id.span.lo = true) :
    node ∈ Node.walkList .whole (Node.keepsContext context.name) function.functionBody := by
  have noName : node.isName = false := by cases node <;> first | rfl | cases opens
  have subset := Node.nodesOf_subset_of_mem isNode
  obtain ⟨statement, isStatement, inStatement⟩ := Node.mem_walkList_iff.mp isUsed
  obtain ⟨part, isPart, place⟩ := Node.mem_nodesOf_iff.mp isInner
  have isChild := (Node.parts_sublist_whole .scopes function).subset
    (Node.mem_parts_of_mem_inner isPart)
  have isBody := Node.mem_parts_of_mem_functionBody isStatement
  have inPart := Node.mem_nodesOf_singleton.mpr place
  have below : ∀ child ∈ function.parts .whole,
      Node.nodesOf .whole [child] ⊆ Node.nodesOf .whole items :=
    fun child member => List.Subset.trans (Node.nodesOf_child_subset member) subset
  have atPart := (Node.within_of_mem_nodesOf
    (fun inner isInner => laidOut.encloses inner (below part isChild isInner)) inPart).contains
      contains
  have atStatement := (Node.within_of_mem_nodesOf
    (fun inner isInner => laidOut.encloses inner (below statement isBody isInner))
    (Node.walk_subset_nodesOf _ _ inStatement)).contains atName
  have partStarts : part.isName = true → part.span.lo = id.span.lo := by
    intro isName
    rw [Node.nodesOf_of_isName isName, List.mem_singleton] at inPart
    rw [inPart, isName] at noName
    cases noName
  have statementStarts : statement.isName = true → statement.span.lo = id.span.lo := by
    intro isName
    have inStatement := Node.walk_subset_nodesOf _ _ inStatement
    rw [Node.nodesOf_of_isName isName, List.mem_singleton] at inStatement
    rw [← inStatement, Node.span]
  have same : part = statement := Node.child_eq_of_contains (laidOut.separates function isNode)
    (fun key method isMethod => outsideKeys key method (subset isMethod)) isChild isBody partStarts
    statementStarts atPart atStatement
  subst same
  rcases Node.mem_walk_of_contains
    (fun inner isInner => laidOut.encloses inner (below part isChild isInner))
    (fun inner isInner => laidOut.separates inner (below part isChild isInner))
    (fun key method isMethod => outsideKeys key method (below part isChild isMethod))
    inStatement (fun _ => rfl) atName inPart noName contains with inWalk | isName
  · exact Node.mem_walkList_iff.mpr ⟨part, isStatement, inWalk⟩
  · rw [Node.nodesOf_of_isName rfl, List.mem_singleton] at isName
    subst isName
    cases opens

/-- A reported use of a named context leads to the context, or to a declaration in a node around
the use that the search has entered. -/
theorem lookup_of_context_use (laidOut : LaidOut items)
    (spelled : ∀ id, .identifier id ∈ Node.nodesOf .whole items → id.span.lo < id.span.hi)
    (handles : HandlesAction span items function)
    (isVisited : function ∈ Node.nodesOf .scopes items)
    (isContext : function.contextName? = some context) :
    function.actionAssets =
        (Node.walkList .whole (Node.keepsContext context.name) function.functionBody).flatMap
          (Node.assetSites context.name) ∧
      ∀ node ∈ Node.walkList .whole (Node.keepsContext context.name) function.functionBody,
        ∀ site ∈ node.assetSites context.name,
          ∃ id, node.usedName? = some id ∧ id.name = context.name ∧
            (¬Node.CrossedAt id.span.lo items → Node.OutsideKeys id.span.lo items →
              ∃ found, (ScopeTree.build span items).findVariable
                  ((ScopeTree.build span items).scopeAt id.span.lo) context.name = some found ∧
                (Definition.of context .parameter ∈ found.definitions ∨
                  ∃ around ∈
                      Node.walkList .whole (Node.keepsContext context.name) function.functionBody,
                    around.Redeclares context.name id.span.lo found)) := by
  refine ⟨Node.actionAssets_of_contextName? isContext, ?_⟩
  intro node entered site isSite
  obtain ⟨id, isUsed, isName⟩ := Node.exists_usedName_of_mem_assetSites isSite
  refine ⟨id, isUsed, isName, ?_⟩
  intro notCrossed outsideKeys
  have isNode := handles.mem_nodesOf
  have inWalk := Node.identifier_mem_walkList entered isUsed
  have inFunction : .identifier id ∈ Node.nodesOf .whole [function] := by
    obtain ⟨statement, isStatement, inStatement⟩ := Node.mem_walkList_iff.mp inWalk
    apply Node.nodesOf_functionBody_subset
    exact Node.nodesOf_singleton_subset isStatement (Node.walk_subset_nodesOf _ _ inStatement)
  have subset := Node.nodesOf_subset_of_mem isNode
  have nonempty := spelled id (subset inFunction)
  have atName : (Node.identifier id).span.contains id.span.lo = true := by
    rw [Span.contains_iff]
    exact ⟨Nat.le_refl _, nonempty⟩
  have atFunction := (Node.within_of_mem_nodesOf
    (fun inner isInner => laidOut.encloses inner (subset isInner)) inFunction).contains atName
  obtain ⟨isOwn, opens⟩ := Node.mem_ownDefinitions_of_contextName? isContext
  obtain ⟨visit, made, isFunction⟩ := @Visit.OfModule.exists_of_mem span items function isVisited
  subst isFunction
  obtain ⟨found, isFound, own | ⟨around, isInner, kind, opensAround, contains, declares⟩⟩ :=
    ScopeTree.findVariable_inside laidOut notCrossed made opens atFunction
      (List.mem_append_left _ isOwn)
  · exact ⟨found, isFound, .inl own⟩
  · have isAround := mem_walkList_of_contains laidOut isNode outsideKeys inWalk atName
      (Node.nodesOf_subset_whole _ isInner) opensAround contains
    refine ⟨found, isFound, .inr ⟨around, isAround, contains, ⟨kind, opensAround, declares⟩, ?_⟩⟩
    intro definition isDeclared isParameter
    rw [Variable.definitions_of_find? declares, List.mem_filter] at isDeclared
    exact Node.isSetter_of_held_parameter (Node.enter_of_mem_walkList isAround) isDeclared.1
      (eq_of_beq isDeclared.2) isParameter

end Search

/-- Whether all reported uses of named contexts lead to the contexts. -/
def UsesReachContexts (span : Span) (items : List Node) : Prop :=
  ∀ function context, HandlesAction span items function →
    function.contextName? = some context →
      ∀ node ∈ Node.walkList .whole (Node.keepsContext context.name) function.functionBody,
        ∀ site ∈ node.assetSites context.name, ∃ id found, node.usedName? = some id ∧
          (ScopeTree.build span items).findVariable
            ((ScopeTree.build span items).scopeAt id.span.lo) context.name = some found ∧
          Definition.of context .parameter ∈ found.definitions

/-- The use `ctx.rootState` of the constant in `shadowingAction`. -/
def shadowedUse : Node := .member ⟨73, 86⟩ (.identifier ⟨"ctx", ⟨73, 76⟩⟩) "rootState"

/-- The action `load(ctx) { { const ctx = other; ctx.rootState; } ctx.rootGetters; }`. -/
def shadowingAction : Node :=
  .functionLike ⟨40, 108⟩ .ordinary none [.identifier ⟨"ctx", ⟨45, 48⟩⟩]
    [.block ⟨52, 89⟩
      [.variableList ⟨54, 71⟩ .lexical
        [.declarator (.identifier ⟨"ctx", ⟨60, 63⟩⟩)
          (some (.identifier ⟨"other", ⟨66, 71⟩⟩))],
        shadowedUse],
      .member ⟨90, 105⟩ (.identifier ⟨"ctx", ⟨90, 93⟩⟩) "rootGetters"] []

/-- The section of a store that holds the action. -/
def shadowingSection : Node :=
  .keyValue (.plainKey ⟨29, 36⟩ (.identifier "actions"))
    (.objectLiteral ⟨38, 110⟩
      [.methodEntry (.plainKey ⟨40, 44⟩ (.identifier "load")) shadowingAction])

/-- The store `{ state: {}, actions: { ... } }` with the action. -/
def shadowingStore : List Node :=
  [.objectLiteral ⟨16, 112⟩
    [.keyValue (.plainKey ⟨18, 23⟩ (.identifier "state")) (.objectLiteral ⟨25, 27⟩ []),
      shadowingSection]]

theorem laidOut_shadowingStore : LaidOut shadowingStore := by decide

theorem handlesAction_shadowingStore :
    HandlesAction ⟨1, 112⟩ shadowingStore shadowingAction := by
  refine ⟨⟨shadowingSection, _⟩, _, _, List.mem_cons_of_mem _ (.head _), ?_, rfl, .head _, rfl⟩
  decide

theorem shadowedUse_mem_walkList :
    shadowedUse ∈ Node.walkList .whole (Node.keepsContext "ctx") shadowingAction.functionBody := by
  simp [shadowingAction, shadowedUse, Node.functionBody, Node.walkList, Node.walk, Node.entering,
    Node.keepsContext]

/-- A constant in a block takes the name of the context, and its use is reported all the same. -/
theorem not_usesReachContexts_shadowingStore :
    LaidOut shadowingStore ∧ ¬UsesReachContexts ⟨1, 112⟩ shadowingStore := by
  refine ⟨laidOut_shadowingStore, ?_⟩
  intro reach
  obtain ⟨id, found, isUsed, isFound, isParameter⟩ := reach shadowingAction ⟨"ctx", ⟨45, 48⟩⟩
    handlesAction_shadowingStore rfl shadowedUse shadowedUse_mem_walkList
    ⟨⟨73, 86⟩, "rootState"⟩ (by decide)
  cases isUsed
  cases isFound
  simp [Definition.of] at isParameter

theorem lookup_of_shadowedUse :
    LaidOut shadowingStore ∧
      (∀ id, .identifier id ∈ Node.nodesOf .whole shadowingStore → id.span.lo < id.span.hi) ∧
      HandlesAction ⟨1, 112⟩ shadowingStore shadowingAction ∧
      shadowingAction ∈ Node.nodesOf .scopes shadowingStore ∧
      shadowingAction.contextName? = some ⟨"ctx", ⟨45, 48⟩⟩ ∧
      ¬Node.CrossedAt 73 shadowingStore ∧ Node.OutsideKeys 73 shadowingStore ∧
      ∃ found, (ScopeTree.build ⟨1, 112⟩ shadowingStore).findVariable
          ((ScopeTree.build ⟨1, 112⟩ shadowingStore).scopeAt 73) "ctx" = some found ∧
        (Definition.of ⟨"ctx", ⟨45, 48⟩⟩ .parameter ∈ found.definitions ∨
          ∃ around ∈ Node.walkList .whole (Node.keepsContext "ctx") shadowingAction.functionBody,
            around.Redeclares "ctx" 73 found) := by
  have spelled : ∀ id, .identifier id ∈ Node.nodesOf .whole shadowingStore →
      id.span.lo < id.span.hi := by
    simp [shadowingStore, shadowingSection, shadowingAction, shadowedUse, Node.nodesOf,
      Node.walkList, Node.walk, Node.walkOption, Node.entering]
  have notCrossed : ¬Node.CrossedAt 73 shadowingStore := by decide
  have outsideKeys : Node.OutsideKeys 73 shadowingStore := by
    simp [shadowingStore, shadowingSection, shadowingAction, shadowedUse, Node.OutsideKeys,
      Node.nodesOf, Node.walkList, Node.walk, Node.walkOption, Node.entering, Node.span,
      Span.contains]
  have isVisited : shadowingAction ∈ Node.nodesOf .scopes shadowingStore := by
    simp [shadowingStore, shadowingSection, Node.nodesOf, Node.walkList, Node.walk, Node.entering,
      shadowingAction]
  refine ⟨laidOut_shadowingStore, spelled, handlesAction_shadowingStore, isVisited, rfl,
    notCrossed, outsideKeys, ?_⟩
  obtain ⟨_, lookups⟩ := lookup_of_context_use laidOut_shadowingStore spelled
    handlesAction_shadowingStore isVisited
    (show shadowingAction.contextName? = some ⟨"ctx", ⟨45, 48⟩⟩ from rfl)
  obtain ⟨id, isUsed, _, lookup⟩ := lookups shadowedUse shadowedUse_mem_walkList
    ⟨⟨73, 86⟩, "rootState"⟩ (by decide)
  cases isUsed
  exact lookup notCrossed outsideKeys

end StoreLint
