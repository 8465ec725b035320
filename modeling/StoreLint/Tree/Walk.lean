import StoreLint.Tree.Node

/-!
# Walks

A walk lists the nodes of a tree, as far as its extent goes, each before the nodes
inside it, and leaves out a node that is not to be entered together with everything
inside it.  What an analysis
finds on its way through a tree is then a function of a list.
-/

namespace StoreLint.Node

/-- A node in front of what is inside it, if the node is entered. -/
def entering (enter : Node → Bool) (node : Node) (inside : List Node) : List Node :=
  if enter node then node :: inside else []

mutual

/-- The nodes of a tree in visiting order, as far as `enter` allows. -/
def walk (extent : Extent) (enter : Node → Bool) : Node → List Node
  | node@(.identifier _) => entering enter node []
  | node@(.literal _ _) => entering enter node []
  | node@(.objectLiteral _ entries) => entering enter node (walkList extent enter entries)
  | node@(.arrayLiteral _ elements) => entering enter node (walkList extent enter elements)
  | node@(.functionLike _ _ _ params body types) =>
      entering enter node (walkList extent enter params ++ walkList extent enter body ++
        extent.aside (walkList extent enter types))
  | node@(.classLike _ _ members heritage) =>
      entering enter node (walkList extent enter members ++ walkList extent enter heritage)
  | node@(.call _ callee args types) =>
      entering enter node (callee.walk extent enter ++
        (walkList extent enter args ++ walkList extent enter types))
  | node@(.member _ object _) => entering enter node (object.walk extent enter)
  | node@(.index _ object key) =>
      entering enter node (object.walk extent enter ++ key.walk extent enter)
  | node@(.reference _ parts) => entering enter node (walkList extent enter parts)
  | node@(.assignment _ target value) =>
      entering enter node (target.walk extent enter ++ value.walk extent enter)
  | node@(.wrapped _ _ inner types) =>
      entering enter node (inner.walk extent enter ++ walkList extent enter types)
  | node@(.operation _ _ operands) => entering enter node (walkList extent enter operands)
  | node@(.compound _ parts) => entering enter node (walkList extent enter parts)
  | node@(.shorthand _) => entering enter node []
  | node@(.initialized _ _ value) => entering enter node (value.walk extent enter)
  | node@(.keyValue key value) =>
      entering enter node (key.walk extent enter ++ value.walk extent enter)
  | node@(.getter _ key types body) =>
      entering enter node (key.walk extent enter ++
        (extent.aside (walkList extent enter types) ++ walkList extent enter body))
  | node@(.setter _ key receiver param body) =>
      entering enter node (key.walk extent enter ++
        (extent.aside (walkOption extent enter receiver) ++
          (param.walk extent enter ++ walkList extent enter body)))
  | node@(.methodEntry key function) =>
      entering enter node (key.walk extent enter ++ function.walk extent enter)
  | node@(.spread _ inner) => entering enter node (inner.walk extent enter)
  | node@(.plainKey _ _) => entering enter node []
  | node@(.computedKey _ inner) => entering enter node (inner.walk extent enter)
  | node@(.arrayPattern _ elements) => entering enter node (walkList extent enter elements)
  | node@(.objectPattern _ properties) => entering enter node (walkList extent enter properties)
  | node@(.restPattern _ inner) => entering enter node (inner.walk extent enter)
  | node@(.defaulted _ target value) =>
      entering enter node (target.walk extent enter ++ value.walk extent enter)
  | node@(.annotated _ target type) =>
      entering enter node (target.walk extent enter ++ type.walk extent enter)
  | node@(.block _ body) => entering enter node (walkList extent enter body)
  | node@(.returns _ value) => entering enter node (walkOption extent enter value)
  | node@(.nested _ heads bodies) =>
      entering enter node (walkList extent enter heads ++ walkList extent enter bodies)
  | node@(.loop _ heads body) =>
      entering enter node (walkList extent enter heads ++ body.walk extent enter)
  | node@(.catches _ param body) =>
      entering enter node (walkOption extent enter param ++ walkList extent enter body)
  | node@(.switch _ discriminant cases) =>
      entering enter node (discriminant.walk extent enter ++ walkList extent enter cases)
  | node@(.variableList _ _ declarators) => entering enter node (walkList extent enter declarators)
  | node@(.declarator target init) =>
      entering enter node (target.walk extent enter ++ walkOption extent enter init)
  | node@(.declaration _ value) => entering enter node (value.walk extent enter)
  | node@(.imports _ _ _ attributes) =>
      entering enter node (extent.aside (walkOption extent enter attributes))
  | node@(.classConstructor _ params body) =>
      entering enter node (walkList extent enter params ++ walkOption extent enter body)

def walkList (extent : Extent) (enter : Node → Bool) : List Node → List Node
  | [] => []
  | node :: nodes => node.walk extent enter ++ walkList extent enter nodes

def walkOption (extent : Extent) (enter : Node → Bool) : Option Node → List Node
  | none => []
  | some node => node.walk extent enter

end

/-- All nodes of a list of trees, in visiting order. -/
def nodesOf (extent : Extent) (items : List Node) : List Node :=
  walkList extent (fun _ => true) items

end StoreLint.Node
