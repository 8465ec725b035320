import StoreLint.Rule.Basic
import StoreLint.Store.Children
import StoreLint.Store.Section
import StoreLint.Tree.Walk

/-!
# Use of the root store

The state and the getters of the root store reach a getter as its third and fourth
parameter, and an action through its context: by destructuring the context in the
parameter list, or, when the context has a name, by an access on that name or by
destructuring it in the body.
-/

namespace StoreLint

def rootState : String := "rootState"

/-- The name of the getters of the root store. -/
def rootGetters : String := "rootGetters"

/-- Whether a name is that of an asset of the root store. -/
def isRootAsset (name : String) : Bool := name == rootState || name == rootGetters

/-- A use of an asset: where it stands and the name of the asset. -/
structure AssetSite where
  span : Span
  asset : String
deriving DecidableEq, Repr, Inhabited

def AssetSite.report (site : AssetSite) : Except AnalysisError Diagnostic :=
  Rule.rootAssets.report site.span "avoidRootAssets" [("assetName", site.asset)]

namespace Node

mutual

def binds (name : String) : Node → Bool
  | .identifier id => id.name == name
  | .arrayPattern _ elements => anyBinds name elements
  | .objectPattern _ properties => anyPropertyBinds name properties
  | .restPattern _ inner => inner.binds name
  | .defaulted _ target _ => target.binds name
  | .annotated _ target _ => target.binds name
  | _ => false

/-- Whether one of the patterns binds the name. -/
def anyBinds (name : String) : List Node → Bool
  | [] => false
  | element :: elements => element.binds name || anyBinds name elements

/-- Whether one of the properties of an object pattern binds the name. -/
def anyPropertyBinds (name : String) : List Node → Bool
  | [] => false
  | .shorthand id :: properties => id.name == name || anyPropertyBinds name properties
  | .initialized _ id _ :: properties => id.name == name || anyPropertyBinds name properties
  | .keyValue _ value :: properties => value.binds name || anyPropertyBinds name properties
  | .restPattern _ inner :: properties => inner.binds name || anyPropertyBinds name properties
  | _ :: properties => anyPropertyBinds name properties

end

/-- The root asset that a property of an object pattern names. -/
def destructuredAsset? (property : Node) : Option AssetSite :=
  match property.entryName? with
  | some name => if isRootAsset name then some ⟨property.span, name⟩ else none
  | none => none

/-- The root assets that an object pattern names. -/
def destructuredAssets (properties : List Node) : List AssetSite :=
  properties.filterMap destructuredAsset?

/-- Whether an expression is the name of the context. -/
def isContext (context : String) (node : Node) : Bool :=
  match node.unwrap with
  | .identifier id => id.name == context
  | _ => false

/-- The root asset that is accessed under a name on an object. -/
def accessedAsset (context : String) (span : Span) (object : Node) (name : Option String) :
    List AssetSite :=
  match name with
  | some asset => if isRootAsset asset && object.isContext context then [⟨span, asset⟩] else []
  | none => []

def stringValue? (node : Node) : Option String :=
  match node.unwrap with
  | .literal _ (.string value) => value
  | _ => none

/-- The uses of root assets that a node by itself makes of a context. -/
def assetSites (context : String) : Node → List AssetSite
  | .member span object name => accessedAsset context span object (some name)
  | .index span object key => accessedAsset context span object key.stringValue?
  | .declarator target (some init) =>
      match target.untyped with
      | .objectPattern _ properties =>
          if init.isContext context then destructuredAssets properties else []
      | _ => []
  | .assignment _ (.objectPattern _ properties) value =>
      if value.isContext context then destructuredAssets properties else []
  | _ => []

/-- Whether a node is not a function whose parameters take the name of the context. -/
def keepsContext (context : String) : Node → Bool
  | .functionLike _ _ _ params _ _ => !anyBinds context params
  | _ => true

/-- The uses of root assets of a context in a body. -/
def contextAssets (context : String) (body : List Node) : List AssetSite :=
  (walkList .whole (keepsContext context) body).flatMap (assetSites context)

/-- The uses of root assets in a function body that receives its context by a parameter. -/
def parameterAssets (body : List Node) : Node → List AssetSite
  | .objectPattern _ properties => destructuredAssets properties
  | .identifier id => contextAssets id.name body
  | .defaulted _ target _ => target.parameterAssets body
  | .annotated _ target _ => target.parameterAssets body
  | _ => []

def actionAssets (function : Node) : List AssetSite :=
  match function.parameters with
  | [] => []
  | context :: _ => context.parameterAssets function.functionBody

/-- The uses of root assets in a getter, by the number of its parameters. -/
def getterAssets (function : Node) : List AssetSite :=
  match function.parameters.length with
  | 0 | 1 | 2 => []
  | 3 => [⟨function.span, rootState⟩]
  | _ => [⟨function.span, rootGetters⟩]

end Node

namespace ScopeTree

/-- The function that handles an action: the function of the entry, or the handler in the object
that describes the action. -/
def actionHandler (tree : ScopeTree) (entry : Node) : Except AnalysisError (Option Node) :=
  let described : Option (List Node) :=
    match entry with
    | .keyValue _ value =>
        match value.unwrap with
        | .objectLiteral _ entries => some entries
        | _ => none
    | _ => none
  match described with
  | none => tree.functionOfEntry entry
  | some entries =>
      match entries.find? fun part => part.entryName? == some "handler" with
      | some handler => tree.functionOfEntry handler
      | none => .ok none

end ScopeTree

/-- The diagnostics for the uses in the function of one entry. -/
def reportAssets (functionOf : Node → Except AnalysisError (Option Node))
    (assetsOf : Node → List AssetSite) (entry : Node) :
    Except AnalysisError (List Diagnostic) := do
  match ← functionOf entry with
  | none => return []
  | some function => (assetsOf function).mapM AssetSite.report

/-- The diagnostics for the uses of root assets in a section of a store. -/
def checkRootAssets (tree : ScopeTree) (placed : PlacedEntry) :
    Except AnalysisError (List Diagnostic) :=
  if placed.isGetters then do
    let children ← tree.childEntries placed.entry
    let found ← children.mapM (reportAssets tree.functionOfEntry Node.getterAssets)
    return found.flatten
  else if placed.isActions then do
    let children ← tree.childEntries placed.entry
    let found ← children.mapM (reportAssets tree.actionHandler Node.actionAssets)
    return found.flatten
  else .ok []

end StoreLint
