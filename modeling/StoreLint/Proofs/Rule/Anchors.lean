import StoreLint.Proofs.Store.Origin

/-!
# Where diagnostics stand

A diagnostic stands at the key of an entry, at a call or at the use of a root asset,
and each of these is a node of the module or a name that a node holds.  In a module in
which all of them stand somewhere in the file, every diagnostic does.
-/

namespace StoreLint

namespace Node

/-- The names that a node holds itself. -/
def heldNames : Node → List Identifier
  | .imports _ locals _ _ => locals
  | node => node.ownNames

/-- The places of a node and of the names it holds itself. -/
def ownSpans (node : Node) : List Span := node.span :: node.heldNames.map Identifier.span

end Node

/-- Each node of the trees, and each name that one of them holds, stands somewhere in the file. -/
def Placed (items : List Node) : Prop :=
  ∀ node ∈ Node.nodesOf .whole items, ∀ span ∈ node.ownSpans, span.isDummy = false

instance (items : List Node) : Decidable (Placed items) :=
  inferInstanceAs (Decidable (∀ node ∈ Node.nodesOf .whole items, ∀ span ∈ node.ownSpans,
    span.isDummy = false))

theorem Placed.span {items : List Node} (placed : Placed items) {node : Node}
    (isNode : node ∈ Node.nodesOf .whole items) : node.span.isDummy = false :=
  placed node isNode node.span (List.mem_cons_self ..)

theorem Placed.key {items : List Node} (placed : Placed items) {entry : Node}
    (isNode : entry ∈ Node.nodesOf .whole items) {key : Span}
    (isKey : entry.entryKeySpan? = some key) :
    key.isDummy = false := by
  have ofChild : ∀ part ∈ entry.parts .whole, part.span = key → key.isDummy = false := by
    intro part isChild isKey
    rw [← isKey]
    exact placed.span
      (Node.nodesOf_subset_of_mem isNode (Node.mem_nodesOf_of_mem_parts isChild))
  cases entry with
  | shorthand id =>
      cases isKey
      exact placed.span isNode
  | initialized span id value =>
      cases isKey
      exact placed _ isNode _ (by simp [Node.ownSpans, Node.heldNames, Node.ownNames])
  | keyValue key value => exact ofChild key (by simp [Node.parts]) (Option.some.inj isKey)
  | getter span key types body => exact ofChild key (by simp [Node.parts]) (Option.some.inj isKey)
  | setter span key receiver param body =>
      exact ofChild key (by simp [Node.parts]) (Option.some.inj isKey)
  | methodEntry key function =>
      exact ofChild key (by simp [Node.parts]) (Option.some.inj isKey)
  | _ => cases isKey

namespace Node

/-- The node is a property of an object pattern in one of the trees. -/
def PropertyIn (items : List Node) (property : Node) : Prop :=
  ∃ span properties,
    Node.objectPattern span properties ∈ nodesOf .whole items ∧ property ∈ properties

/-- Whether the node is an access to a property, by its name or by a computed key. -/
def isAccess : Node → Bool
  | .member _ _ _ => true
  | .index _ _ _ => true
  | _ => false

/-- The use stands at an access or at a property of an object pattern in one of the trees. -/
def SiteIn (items : List Node) (site : AssetSite) : Prop :=
  ∃ node ∈ nodesOf .whole items,
    site.span = node.span ∧ (node.isAccess = true ∨ PropertyIn items node)

theorem SiteIn.mono {inner items : List Node} {site : AssetSite} (isSite : SiteIn inner site)
    (subset : nodesOf .whole inner ⊆ nodesOf .whole items) : SiteIn items site := by
  obtain ⟨node, isNode, same, kind⟩ := isSite
  refine ⟨node, subset isNode, same, kind.imp_right ?_⟩
  rintro ⟨span, properties, isPattern, isProperty⟩
  exact ⟨span, properties, subset isPattern, isProperty⟩

theorem siteIn_of_destructuredAssets (span : Span) {properties : List Node} {site : AssetSite}
    (isSite : site ∈ destructuredAssets properties) :
    SiteIn [.objectPattern span properties] site := by
  obtain ⟨property, isProperty, isAsset⟩ := List.mem_filterMap.mp isSite
  unfold destructuredAsset? at isAsset
  split at isAsset
  · split at isAsset
    · cases isAsset
      refine ⟨property, mem_nodesOf_of_mem_parts isProperty, rfl, .inr ?_⟩
      exact ⟨span, properties, mem_nodesOf_of_mem (by simp), isProperty⟩
    · cases isAsset
  · cases isAsset

theorem span_of_accessedAsset {context : String} {span : Span} {object : Node}
    {name : Option String} {site : AssetSite}
    (isSite : site ∈ accessedAsset context span object name) : site.span = span := by
  unfold accessedAsset at isSite
  split at isSite
  · split at isSite
    · rw [List.mem_singleton.mp isSite]
    · cases isSite
  · cases isSite

theorem siteIn_of_assetSites {context : String} {node : Node} {site : AssetSite}
    (isSite : site ∈ node.assetSites context) : SiteIn [node] site := by
  have self : node ∈ nodesOf .whole [node] := mem_nodesOf_of_mem (by simp)
  unfold assetSites at isSite
  split at isSite
  · exact ⟨_, self, span_of_accessedAsset isSite, .inl rfl⟩
  · exact ⟨_, self, span_of_accessedAsset isSite, .inl rfl⟩
  next target init =>
    split at isSite
    next patternSpan properties isPattern =>
      split at isSite
      · have inTarget : nodesOf .whole [.objectPattern patternSpan properties] ⊆
            nodesOf .whole [target] := by
          rw [← isPattern]
          exact nodesOf_untyped_subset target
        apply (siteIn_of_destructuredAssets patternSpan isSite).mono
        exact List.Subset.trans inTarget (nodesOf_child_subset (by simp [parts]))
      · cases isSite
    · cases isSite
  next patternSpan properties value =>
    split at isSite
    · apply (siteIn_of_destructuredAssets patternSpan isSite).mono
      exact nodesOf_child_subset (by simp [parts])
    · cases isSite
  · cases isSite

theorem siteIn_of_contextAssets {context : String} {body : List Node} {site : AssetSite}
    (isSite : site ∈ contextAssets context body) : SiteIn body site := by
  obtain ⟨node, isVisited, isOwn⟩ := List.mem_flatMap.mp isSite
  obtain ⟨top, isTop, isBelow⟩ := mem_walkList_iff.mp isVisited
  have isNode : node ∈ nodesOf .whole body :=
    nodesOf_singleton_subset isTop (walk_subset_nodesOf _ top isBelow)
  exact (siteIn_of_assetSites isOwn).mono (nodesOf_subset_of_mem isNode)

theorem siteIn_of_parameterAssets {body : List Node} (param : Node) {site : AssetSite}
    (isSite : site ∈ param.parameterAssets body) : SiteIn (param :: body) site := by
  induction param using inductionOnParts .whole with
  | step param induction =>
      have ofTarget : ∀ target ∈ param.parts .whole, site ∈ target.parameterAssets body →
          SiteIn (param :: body) site := by
        intro target isChild isSite
        apply (induction target isChild isSite).mono
        intro node isNode
        rw [nodesOf_cons_eq_append, List.mem_append] at isNode ⊢
        exact isNode.imp_left fun inTarget => nodesOf_child_subset isChild inTarget
      cases param with
      | objectPattern span properties =>
          apply (siteIn_of_destructuredAssets span isSite).mono
          exact nodesOf_singleton_subset (by simp)
      | identifier id =>
          apply (siteIn_of_contextAssets isSite).mono
          rw [nodesOf_cons_eq_append]
          exact List.subset_append_right _ _
      | defaulted span target value => exact ofTarget target (by simp [parts]) isSite
      | annotated span target type => exact ofTarget target (by simp [parts]) isSite
      | _ => cases isSite

/-- A use of a root asset in an action stands at an access or at a pattern property in it. -/
theorem siteIn_of_actionAssets {function : Node} {site : AssetSite}
    (isSite : site ∈ function.actionAssets) : SiteIn [function] site := by
  unfold actionAssets at isSite
  split at isSite
  · cases isSite
  next context others isParameters =>
    apply (siteIn_of_parameterAssets context isSite).mono
    apply nodesOf_parts_subset
    cases function with
    | functionLike span form own params body types =>
        cases isParameters
        simp only [functionBody, parts, List.cons_append, List.append_assoc]
        exact List.cons_subset_cons _ (List.subset_append_of_subset_right _
          (List.subset_append_left _ _))
    | _ => cases isParameters

theorem span_of_getterAssets {function : Node} {site : AssetSite}
    (isSite : site ∈ function.getterAssets) : site.span = function.span := by
  unfold getterAssets at isSite
  split at isSite
  · cases isSite
  · cases isSite
  · cases isSite
  · rw [List.mem_singleton.mp isSite]
  · rw [List.mem_singleton.mp isSite]

end Node

theorem call_mem_nodesOf {items : List Node} {span : Span} {callee : Node} {args : List Node}
    (isTarget : Target.call span callee args ∈ targetsOf items) :
    ∃ types, Node.call span callee args types ∈ Node.nodesOf .whole items := by
  obtain ⟨node, isNode, isOwn⟩ := List.mem_flatMap.mp isTarget
  unfold Node.targets at isOwn
  split at isOwn
  · simp at isOwn
  · simp only [List.mem_singleton] at isOwn
    cases isOwn
    exact ⟨_, isNode⟩
  · cases isOwn

theorem mem_targetsOf_of_check {rules : List Rule} {items : List Node} {check : Target × Rule}
    (isCheck : check ∈ checksOf rules items) : check.1 ∈ targetsOf items := by
  obtain ⟨target, isTarget, isOwn⟩ := List.mem_flatMap.mp isCheck
  obtain ⟨rule, _, rfl⟩ := List.mem_map.mp isOwn
  exact isTarget

theorem Placed.getterAssets {items : List Node} (placed : Placed items) {function : Node}
    (isNode : function ∈ Node.nodesOf .whole items) {site : AssetSite}
    (isSite : site ∈ function.getterAssets) : site.span.isDummy = false := by
  rw [Node.span_of_getterAssets isSite]
  exact placed.span isNode

theorem Placed.actionAssets {items : List Node} (placed : Placed items) {function : Node}
    (isNode : function ∈ Node.nodesOf .whole items) {site : AssetSite}
    (isSite : site ∈ function.actionAssets) : site.span.isDummy = false := by
  obtain ⟨node, isInner, same, _⟩ := Node.siteIn_of_actionAssets isSite
  rw [same]
  exact placed.span (Node.nodesOf_subset_of_mem isNode isInner)

end StoreLint
