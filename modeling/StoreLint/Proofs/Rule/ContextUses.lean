import StoreLint.Proofs.Tree.Bare
import StoreLint.Proofs.Tree.Routes

/-!
# The uses of a named context

A use of a context stands where a property of the context is read, or where a property of
an object pattern takes the context apart; in the second case it has the number of the
property.  `contextUsesOf` lists the uses of root assets in a body with their places, and
`contextAssets_lists_uses` says that a search finds just these: all of them, also those
inside another one, each once and in visiting order.  What is out of sight of the search is
inside a function whose parameters take the name of the context.
-/

namespace StoreLint

/-- The name is that of the state or of the getters of the root store. -/
def IsAssetName (name : String) : Prop := name = "rootState" ∨ name = "rootGetters"

namespace Node

/-- The expression is the name, possibly in wrappers. -/
def IsName (name : String) (node : Node) : Prop :=
  ∃ span, node.unwrap = .identifier ⟨name, span⟩

/-- The node at that place reads the property of that name of an object, with the name after a point
or as a string in brackets. -/
inductive Reads : Node → Span → Node → String → Prop where
  | member {span : Span} {object : Node} {name : String} :
      Reads (.member span object name) span object name
  | index {span keySpan : Span} {object key : Node} {name : String}
      (isText : key.unwrap = .literal keySpan (.string (some name))) :
      Reads (.index span object key) span object name

/-- The node takes a value apart by an object pattern with these properties, which is the whole
target of a declarator, possibly with a type, or of an assignment. -/
inductive TakesApart : Node → Node → List Node → Prop where
  | declarator {span : Span} {target value : Node} {properties : List Node}
      (isPattern : target.untyped = .objectPattern span properties) :
      TakesApart (.declarator target (some value)) value properties
  | assignment {span patternSpan : Span} {value : Node} {properties : List Node} :
      TakesApart (.assignment span (.objectPattern patternSpan properties) value) value properties

/-- The node by itself uses a root asset of the context. -/
inductive Uses (context : String) (node : Node) : Nat → AssetSite → Prop where
  | access {span : Span} {object : Node} {asset : String} (reads : node.Reads span object asset)
      (isContext : object.IsName context) (isAsset : IsAssetName asset) :
      Uses context node 0 ⟨span, asset⟩
  | property {value property : Node} {properties : List Node} {number : Nat} {asset : String}
      (takesApart : node.TakesApart value properties) (isContext : value.IsName context)
      (isProperty : properties[number]? = some property)
      (isNamed : property.entryName? = some asset) (isAsset : IsAssetName asset) :
      Uses context node number ⟨property.span, asset⟩

/-- The node is a function one of whose parameters binds the name. -/
inductive Rebinds (name : String) : Node → Prop where
  | parameter {span : Span} {form : FunctionForm} {own : Option Identifier}
      {params body types : List Node} {id : Identifier} (isBound : id ∈ boundNamesList params)
      (isName : id.name = name) : Rebinds name (.functionLike span form own params body types)

/-- The route leads to or into a function one of whose parameters binds the name. -/
def Hidden (name : String) (body : List Node) (route : List Nat) : Prop :=
  ∃ outer function, outer <+: route ∧ nodeAt? body outer = some function ∧ function.Rebinds name

end Node

/-- A use of a root asset and where it stands: the route to the node that makes the use, and the
number of the property if that node takes the context apart. -/
structure ContextUse where
  route : List Nat
  number : Nat
  site : AssetSite

namespace ContextUse

/-- The body makes this use of the context at that place. -/
def Stands (context : String) (body : List Node) (use : ContextUse) : Prop :=
  ∃ node, Node.nodeAt? body use.route = some node ∧ ¬Node.Hidden context body use.route ∧
    node.Uses context use.number use.site

/-- The visiting order: the uses of one node by their numbers, and these before the uses of the
nodes that are visited later, the ones inside it among them. -/
inductive Before : ContextUse → ContextUse → Prop where
  | visit {first second : ContextUse} (isBefore : first.route < second.route) :
      Before first second
  | property {first second : ContextUse} (sameNode : first.route = second.route)
      (isBefore : first.number < second.number) : Before first second

theorem Before.ne {first second : ContextUse} (before : Before first second) : first ≠ second := by
  rintro rfl
  cases before with
  | visit isBefore => exact List.lt_irrefl _ isBefore
  | property sameNode isBefore => exact Nat.lt_irrefl _ isBefore

end ContextUse

theorem isRootAsset_iff {name : String} : isRootAsset name = true ↔ IsAssetName name := by
  simp [isRootAsset, IsAssetName, rootState, rootGetters]

namespace Node

theorem isContext_iff {context : String} {node : Node} :
    node.isContext context = true ↔ node.IsName context := by
  unfold isContext IsName
  constructor
  · intro isContext
    split at isContext
    next id isIdentifier => exact ⟨id.span, by rw [isIdentifier, ← eq_of_beq isContext]⟩
    next => cases isContext
  · rintro ⟨span, isIdentifier⟩
    rw [isIdentifier]
    exact beq_self_eq_true context

theorem stringValue?_eq_some_iff {key : Node} {text : String} :
    key.stringValue? = some text ↔ ∃ span, key.unwrap = .literal span (.string (some text)) := by
  unfold stringValue?
  constructor
  · intro isText
    split at isText
    next span value isLiteral => exact ⟨span, by rw [isLiteral, isText]⟩
    next => cases isText
  · rintro ⟨span, isLiteral⟩
    rw [isLiteral]

theorem mem_accessedAsset_iff {context : String} {span : Span} {object : Node}
    {name : Option String} {site : AssetSite} :
    site ∈ accessedAsset context span object name ↔
      ∃ asset, name = some asset ∧ IsAssetName asset ∧ object.IsName context ∧
        site = ⟨span, asset⟩ := by
  unfold accessedAsset
  constructor
  · intro isSite
    split at isSite
    next asset =>
      split at isSite
      next both =>
        obtain ⟨isAsset, isContext⟩ := Bool.and_eq_true_iff.mp both
        exact ⟨asset, rfl, isRootAsset_iff.mp isAsset, isContext_iff.mp isContext,
          List.mem_singleton.mp isSite⟩
      next => cases isSite
    next => cases isSite
  · rintro ⟨asset, rfl, isAsset, isContext, rfl⟩
    dsimp only
    rw [isRootAsset_iff.mpr isAsset, isContext_iff.mpr isContext]
    exact List.mem_singleton.mpr rfl

theorem pairwise_accessedAsset {related : AssetSite → AssetSite → Prop} {context : String}
    {span : Span} {object : Node} {name : Option String} :
    (accessedAsset context span object name).Pairwise related := by
  unfold accessedAsset
  split
  · split
    · exact List.pairwise_singleton _ _
    · exact .nil
  · exact .nil

theorem destructuredAsset?_eq_some_iff {property : Node} {site : AssetSite} :
    property.destructuredAsset? = some site ↔
      ∃ asset, property.entryName? = some asset ∧ IsAssetName asset ∧
        site = ⟨property.span, asset⟩ := by
  unfold destructuredAsset?
  constructor
  · intro isSite
    split at isSite
    next asset isNamed =>
      split at isSite
      next isAsset =>
        cases isSite
        exact ⟨asset, isNamed, isRootAsset_iff.mp isAsset, rfl⟩
      next => cases isSite
    next => cases isSite
  · rintro ⟨asset, isNamed, isAsset, rfl⟩
    rw [isNamed]
    exact if_pos (isRootAsset_iff.mpr isAsset)

theorem keepsContext_iff {name : String} {node : Node} :
    node.keepsContext name = true ↔ ¬node.Rebinds name := by
  cases node with
  | functionLike span form own params body types =>
      rw [keepsContext, Bool.not_eq_true', ← Bool.not_eq_true, anyBinds_iff, not_iff_not]
      constructor
      · rintro ⟨id, isBound, isName⟩
        exact .parameter isBound isName
      · rintro ⟨isBound, isName⟩
        exact ⟨_, isBound, isName⟩
  | _ => exact iff_of_true rfl nofun

theorem reaches_keepsContext_iff {name : String} {body : List Node} {route : List Nat} :
    reaches (keepsContext name) body route = true ↔ ¬Hidden name body route := by
  rw [reaches_iff]
  constructor
  · rintro entered ⟨outer, function, isOuter, leads, rebinds⟩
    exact keepsContext_iff.mp (entered outer isOuter function leads) rebinds
  · intro visible outer isOuter node leads
    apply keepsContext_iff.mpr
    intro rebinds
    exact visible ⟨outer, node, isOuter, leads, rebinds⟩

/-- The uses that the properties of an object pattern make of what they take apart. -/
def propertyUses (route : List Nat) (properties : List Node) : List ContextUse :=
  properties.zipIdx.filterMap fun part =>
    part.1.destructuredAsset?.map fun site => ⟨route, part.2, site⟩

/-- The uses of a context that the node at the end of a route makes by itself. -/
def contextUses (context : String) (route : List Nat) : Node → List ContextUse
  | .member span object name =>
      (accessedAsset context span object (some name)).map (ContextUse.mk route 0)
  | .index span object key =>
      (accessedAsset context span object key.stringValue?).map (ContextUse.mk route 0)
  | .declarator target (some init) =>
      match target.untyped with
      | .objectPattern _ properties =>
          if init.isContext context then propertyUses route properties else []
      | _ => []
  | .assignment _ (.objectPattern _ properties) value =>
      if value.isContext context then propertyUses route properties else []
  | _ => []

theorem map_site_propertyUses (route : List Nat) (properties : List Node) :
    (propertyUses route properties).map ContextUse.site = destructuredAssets properties := by
  have sites : (propertyUses route properties).map ContextUse.site =
      properties.zipIdx.filterMap fun part => part.1.destructuredAsset? := by
    rw [propertyUses, List.map_filterMap]
    apply List.filterMap_congr
    intro part _
    rw [Option.map_map]
    exact Option.map_id'
  conv =>
    rhs
    rw [destructuredAssets, ← List.zipIdx_map_fst 0 properties, List.filterMap_map]
  exact sites

theorem map_site_contextUses (context : String) (route : List Nat) (node : Node) :
    (node.contextUses context route).map ContextUse.site = node.assetSites context := by
  fun_cases contextUses context route node with
  | case1 span object name =>
      rw [assetSites, List.map_map]
      exact List.map_id _
  | case2 span object key =>
      rw [assetSites, List.map_map]
      exact List.map_id _
  | case3 target init span properties isPattern isContext =>
      simp only [assetSites, isPattern, if_pos isContext]
      exact map_site_propertyUses route properties
  | case4 target init span properties isPattern notContext =>
      simp only [assetSites, isPattern, if_neg notContext]
      rfl
  | case5 target init noPattern =>
      rw [assetSites]
      split
      · exact absurd ‹_› (noPattern _ _)
      · rfl
  | case6 span patternSpan properties value isContext =>
      rw [assetSites, if_pos isContext]
      exact map_site_propertyUses route properties
  | case7 span patternSpan properties value notContext =>
      rw [assetSites, if_neg notContext]
      rfl
  | case8 =>
      rw [assetSites]
      · rfl
      all_goals assumption

theorem mem_propertyUses_iff {reached route : List Nat} {properties : List Node} {number : Nat}
    {site : AssetSite} :
    ⟨reached, number, site⟩ ∈ propertyUses route properties ↔
      reached = route ∧ ∃ property asset, properties[number]? = some property ∧
        property.entryName? = some asset ∧ IsAssetName asset ∧ site = ⟨property.span, asset⟩ := by
  rw [propertyUses, List.mem_filterMap]
  constructor
  · rintro ⟨⟨property, number⟩, isPart, isUse⟩
    obtain ⟨site, isSite, made⟩ := Option.map_eq_some_iff.mp isUse
    cases made
    obtain ⟨asset, isNamed, isAsset, isSite⟩ := destructuredAsset?_eq_some_iff.mp isSite
    have isProperty := List.mem_zipIdx_iff_getElem?.mp isPart
    exact ⟨rfl, property, asset, isProperty, isNamed, isAsset, isSite⟩
  · rintro ⟨rfl, property, asset, isProperty, isNamed, isAsset, isSite⟩
    refine ⟨(property, number), List.mem_zipIdx_iff_getElem?.mpr isProperty, ?_⟩
    rw [destructuredAsset?_eq_some_iff.mpr ⟨asset, isNamed, isAsset, isSite⟩]
    rfl

theorem mem_contextUses_iff {context : String} {reached route : List Nat} {node : Node}
    {number : Nat} {site : AssetSite} :
    ⟨reached, number, site⟩ ∈ node.contextUses context route ↔
      reached = route ∧ node.Uses context number site := by
  have ofProperties : ∀ {value : Node} {properties : List Node},
      node.TakesApart value properties → value.isContext context = true →
        ⟨reached, number, site⟩ ∈ propertyUses route properties →
          reached = route ∧ node.Uses context number site := by
    intro value properties takesApart isContext isUse
    obtain ⟨isRoute, property, asset, isProperty, isNamed, isAsset, rfl⟩ :=
      mem_propertyUses_iff.mp isUse
    exact ⟨isRoute, .property takesApart (isContext_iff.mp isContext) isProperty isNamed isAsset⟩
  constructor
  · intro isUse
    unfold contextUses at isUse
    split at isUse
    next span object name =>
      obtain ⟨found, isFound, made⟩ := List.mem_map.mp isUse
      cases made
      obtain ⟨asset, isName, isAsset, isContext, rfl⟩ := mem_accessedAsset_iff.mp isFound
      cases isName
      exact ⟨rfl, .access .member isContext isAsset⟩
    next span object key =>
      obtain ⟨found, isFound, made⟩ := List.mem_map.mp isUse
      cases made
      obtain ⟨asset, isName, isAsset, isContext, rfl⟩ := mem_accessedAsset_iff.mp isFound
      obtain ⟨keySpan, isText⟩ := stringValue?_eq_some_iff.mp isName
      exact ⟨rfl, .access (.index isText) isContext isAsset⟩
    next =>
      split at isUse
      next isPattern =>
        split at isUse
        next isContext => exact ofProperties (.declarator isPattern) isContext isUse
        next => cases isUse
      next => cases isUse
    next =>
      split at isUse
      next isContext => exact ofProperties .assignment isContext isUse
      next => cases isUse
    next => cases isUse
  · rintro ⟨rfl, uses⟩
    cases uses with
    | access reads isContext isAsset =>
        cases reads with
        | member =>
            apply List.mem_map_of_mem
            exact mem_accessedAsset_iff.mpr ⟨_, rfl, isAsset, isContext, rfl⟩
        | index isText =>
            apply List.mem_map_of_mem
            have isName := stringValue?_eq_some_iff.mpr ⟨_, isText⟩
            exact mem_accessedAsset_iff.mpr ⟨_, isName, isAsset, isContext, rfl⟩
    | property takesApart isContext isProperty isNamed isAsset =>
        have isUse := mem_propertyUses_iff.mpr
          ⟨Eq.refl reached, _, _, isProperty, isNamed, isAsset, rfl⟩
        have isContext := isContext_iff.mpr isContext
        cases takesApart with
        | declarator isPattern =>
            simp only [contextUses, isPattern, if_pos isContext]
            exact isUse
        | assignment =>
            rw [contextUses, if_pos isContext]
            exact isUse

theorem pairwise_propertyUses (route : List Nat) (properties : List Node) :
    (propertyUses route properties).Pairwise ContextUse.Before := by
  apply List.pairwise_filterMap.mpr
  apply (pairwise_zipIdx properties).imp
  intro first second isEarlier left isLeft right isRight
  obtain ⟨_, _, rfl⟩ := Option.map_eq_some_iff.mp isLeft
  obtain ⟨_, _, rfl⟩ := Option.map_eq_some_iff.mp isRight
  exact .property rfl isEarlier

theorem pairwise_contextUses (context : String) (route : List Nat) (node : Node) :
    (node.contextUses context route).Pairwise ContextUse.Before := by
  unfold contextUses
  split
  · exact List.pairwise_map.mpr pairwise_accessedAsset
  · exact List.pairwise_map.mpr pairwise_accessedAsset
  · split
    · split
      · exact pairwise_propertyUses route _
      · exact .nil
    · exact .nil
  · split
    · exact pairwise_propertyUses route _
    · exact .nil
  · exact .nil

/-- The uses of a context in a body with their places, in visiting order. -/
def contextUsesOf (context : String) (body : List Node) : List ContextUse :=
  ((routesOf body).filter fun place => reaches (keepsContext context) body place.1).flatMap
    fun place => place.2.contextUses context place.1

theorem contextAssets_eq_map_site (context : String) (body : List Node) :
    contextAssets context body = (contextUsesOf context body).map ContextUse.site := by
  rw [contextAssets, ← map_snd_filter_routesOf, List.flatMap_map, contextUsesOf, List.map_flatMap]
  apply List.flatMap_congr
  intro place _
  exact (map_site_contextUses context place.1 place.2).symm

theorem mem_contextUsesOf_iff {context : String} {body : List Node} {use : ContextUse} :
    use ∈ contextUsesOf context body ↔ use.Stands context body := by
  rw [contextUsesOf, List.mem_flatMap]
  constructor
  · rintro ⟨⟨route, node⟩, isPlace, isUse⟩
    obtain ⟨isListed, entered⟩ := List.mem_filter.mp isPlace
    obtain ⟨rfl, uses⟩ := mem_contextUses_iff.mp isUse
    exact ⟨node, mem_routesOf_iff.mp isListed, reaches_keepsContext_iff.mp entered, uses⟩
  · rintro ⟨node, leads, visible, uses⟩
    refine ⟨(use.route, node), List.mem_filter.mpr ⟨mem_routesOf_iff.mpr leads, ?_⟩, ?_⟩
    · exact reaches_keepsContext_iff.mpr visible
    · exact mem_contextUses_iff.mpr ⟨rfl, uses⟩

theorem pairwise_contextUsesOf (context : String) (body : List Node) :
    (contextUsesOf context body).Pairwise ContextUse.Before := by
  rw [contextUsesOf, List.pairwise_flatMap]
  constructor
  · intro place _
    exact pairwise_contextUses context place.1 place.2
  · apply ((pairwise_routesOf body).filter _).imp
    intro first second isBefore left isLeft right isRight
    apply ContextUse.Before.visit
    rw [(mem_contextUses_iff.mp isLeft).1, (mem_contextUses_iff.mp isRight).1]
    exact isBefore

/-- A search of a body finds each use of the context once and nothing else, in visiting order. -/
theorem contextAssets_lists_uses (context : String) (body : List Node) :
    contextAssets context body = (contextUsesOf context body).map ContextUse.site ∧
      (∀ use, use ∈ contextUsesOf context body ↔ use.Stands context body) ∧
      (contextUsesOf context body).Nodup ∧
      (contextUsesOf context body).Pairwise ContextUse.Before := by
  have ordered := pairwise_contextUsesOf context body
  refine ⟨contextAssets_eq_map_site context body, ?_, ?_, ordered⟩
  · intro use
    exact mem_contextUsesOf_iff
  · apply ordered.imp
    intro first second before
    exact before.ne

-- The uses in `const { rootState = ctx.rootGetters } = ctx;`, where one is inside the other, and in
-- `each((ctx = ctx.rootState) => ctx.rootGetters);`, where both are hidden.
example :
    contextAssets "ctx"
        [.variableList ⟨1, 45⟩ .lexical
          [.declarator
            (.objectPattern ⟨7, 38⟩
              [.initialized ⟨9, 36⟩ ⟨"rootState", ⟨9, 18⟩⟩
                (.member ⟨21, 36⟩ (.identifier ⟨"ctx", ⟨21, 24⟩⟩) "rootGetters")])
            (some (.identifier ⟨"ctx", ⟨41, 44⟩⟩))],
          .call ⟨46, 92⟩ (.identifier ⟨"each", ⟨46, 50⟩⟩)
            [.functionLike ⟨51, 91⟩ .concise none
              [.defaulted ⟨52, 71⟩ (.identifier ⟨"ctx", ⟨52, 55⟩⟩)
                (.member ⟨58, 71⟩ (.identifier ⟨"ctx", ⟨58, 61⟩⟩) "rootState")]
              [.member ⟨76, 91⟩ (.identifier ⟨"ctx", ⟨76, 79⟩⟩) "rootGetters"] []] []] =
      [⟨⟨9, 36⟩, "rootState"⟩, ⟨⟨21, 36⟩, "rootGetters"⟩] := by
  decide

end Node

end StoreLint
