import StoreLint.Scope.Tree
import StoreLint.Tree.Pattern

/-!
# Scopes of a module

One traversal opens the scopes and declares the names of a module.  The body of a
function shares the scope of the function, and so does the body of a catch clause.
A computed key of a method, getter or setter and the discriminant of a `switch`
are outside of the scope that follows them.  A constructor opens no scope of its
own: its body is a block, and its parameters are declared nowhere.  Passed over are
the types of functions and getters, the parameter `this` of a setter and the
attributes of imports.
-/

namespace StoreLint

/-- What a declared function or class is known as. -/
def DefinitionKind.ofDeclared : Node → DefinitionKind
  | .classLike _ _ _ _ => .className
  | function => .functionName function

namespace ScopeTree

/-- Declares the names of one declarator.  Only a plain name keeps its initial value. -/
def declareDeclarator (tree : ScopeTree) (scope : Nat) : Node → ScopeTree
  | .declarator target init =>
      match target.untyped with
      | .identifier id => tree.declareId scope (.binding init) id
      | pattern => tree.declareAll scope (.binding none) pattern.boundNames
  | _ => tree

/-- Declares the names of a variable declaration in the scope they belong to. -/
def declareVariables (tree : ScopeTree) (current : Nat) (kind : VariableKind)
    (declarators : List Node) : ScopeTree :=
  let target :=
    match kind with
    | .hoisted => tree.varScope current
    | .lexical => current
  declarators.foldl (fun tree declarator => tree.declareDeclarator target declarator) tree

/-- Declares the name that a function or class expression has inside itself. -/
def declareOwn (tree : ScopeTree) (scope : Nat) (kind : DefinitionKind) :
    Option Identifier → ScopeTree
  | none => tree
  | some id => tree.declareId scope kind id

mutual

/-- Opens the scopes of a node, and declares its names, in the scope `current`. -/
def visit (tree : ScopeTree) (current : Nat) : Node → ScopeTree
  | .identifier _ => tree
  | .literal _ _ => tree
  | .objectLiteral _ entries => tree.visitList current entries
  | .arrayLiteral _ elements => tree.visitList current elements
  | .functionLike span form own params body types =>
      let scope := tree.size
      let opened := tree.createScope .function current span
      let function := Node.functionLike span form own params body types
      let named := opened.declareOwn scope (.functionName function) own
      let declared := named.declareAll scope .parameter (Node.boundNamesList params)
      (declared.visitList scope params).visitList scope body
  | .classLike span own members heritage =>
      let scope := tree.size
      let opened := tree.createScope .classBody current span
      let named := opened.declareOwn scope .className own
      (named.visitList scope members).visitList scope heritage
  | .call _ callee args types =>
      ((tree.visit current callee).visitList current args).visitList current types
  | .member _ object _ => tree.visit current object
  | .index _ object key => (tree.visit current object).visit current key
  | .assignment _ target value => (tree.visit current target).visit current value
  | .wrapped _ _ inner types => (tree.visit current inner).visitList current types
  | .reference _ parts => tree.visitList current parts
  | .operation _ _ operands => tree.visitList current operands
  | .compound _ parts => tree.visitList current parts
  | .shorthand _ => tree
  | .initialized _ _ value => tree.visit current value
  | .keyValue key value => (tree.visit current key).visit current value
  | .getter span key _ body =>
      let outside := tree.visit current key
      let scope := outside.size
      (outside.createScope .function current span).visitList scope body
  | .setter span key _ param body =>
      let outside := tree.visit current key
      let scope := outside.size
      let opened := outside.createScope .function current span
      let declared := opened.declareAll scope .parameter param.boundNames
      (declared.visit scope param).visitList scope body
  | .methodEntry key function => (tree.visit current key).visit current function
  | .spread _ inner => tree.visit current inner
  | .plainKey _ _ => tree
  | .computedKey _ inner => tree.visit current inner
  | .arrayPattern _ elements => tree.visitList current elements
  | .objectPattern _ properties => tree.visitList current properties
  | .restPattern _ inner => tree.visit current inner
  | .defaulted _ target value => (tree.visit current target).visit current value
  | .annotated _ target type => (tree.visit current target).visit current type
  | .block span body =>
      let scope := tree.size
      (tree.createScope .block current span).visitList scope body
  | .returns _ value => tree.visitOption current value
  | .nested _ heads bodies => (tree.visitList current heads).visitList current bodies
  | .loop span heads body =>
      let scope := tree.size
      ((tree.createScope .loop current span).visitList scope heads).visit scope body
  | .catches span param body =>
      let scope := tree.size
      let opened := tree.createScope .catchClause current span
      let declared :=
        opened.declareAll scope .catchClause ((param.map Node.boundNames).getD [])
      (declared.visitOption scope param).visitList scope body
  | .switch span discriminant cases =>
      let outside := tree.visit current discriminant
      let scope := outside.size
      (outside.createScope .switch current span).visitList scope cases
  | .variableList _ kind declarators =>
      (tree.declareVariables current kind declarators).visitList current declarators
  | .declarator target init => (tree.visit current target).visitOption current init
  | .declaration id value =>
      (tree.declareId current (.ofDeclared value) id).visit current value
  | .imports _ locals source _ => tree.declareAll root (.importBinding source) locals
  | .classConstructor _ params body => (tree.visitList current params).visitOption current body

def visitList (tree : ScopeTree) (current : Nat) : List Node → ScopeTree
  | [] => tree
  | node :: nodes => (tree.visit current node).visitList current nodes

def visitOption (tree : ScopeTree) (current : Nat) : Option Node → ScopeTree
  | none => tree
  | some node => tree.visit current node

end

/-- The scope tree of a module that spans `span` and consists of the given items. -/
def build (span : Span) (items : List Node) : ScopeTree :=
  (ofModule span).visitList root items

end ScopeTree

end StoreLint
