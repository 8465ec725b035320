import StoreLint.Tree.Node

/-!
# Scope trees

The scopes of a module are numbered in the order in which they are opened; the
first is the module itself, and every other one knows the number of the scope
around it.  Since a scope is opened before anything inside it is visited, the last
scope that contains a position is the innermost one.
-/

namespace StoreLint

/-- The constructs that open a scope. -/
inductive ScopeKind where
  | module
  | function
  | block
  | loop
  | catchClause
  | switch
  | classBody
deriving DecidableEq, Repr, Inhabited

/-- Whether `var` declarations inside the scope belong to it. -/
def ScopeKind.isVarTarget : ScopeKind → Bool
  | .module | .function => true
  | _ => false

/-- What a name is declared as, with the part of the tree that gives its value. -/
inductive DefinitionKind where
  /-- `var`, `let` or `const`; a destructured name and one without a value have no `init`. -/
  | binding (init : Option Node)
  /-- A function declaration, or the own name of a function expression. -/
  | functionName (function : Node)
  | importBinding (source : String)
  | parameter
  | className
  | catchClause
deriving Repr, Inhabited

/-- One declaration of a name. -/
structure Definition where
  name : String
  kind : DefinitionKind
  /-- Where the declared name stands. -/
  nameSpan : Span
deriving Repr, Inhabited

/-- The declaration of `id` as something of the given kind. -/
def Definition.of (id : Identifier) (kind : DefinitionKind) : Definition :=
  { name := id.name, kind, nameSpan := id.span }

/-- A name of one scope and its declarations there, in the order in which they were met. -/
structure Variable where
  name : String
  definitions : List Definition
deriving Repr, Inhabited

namespace Variable

/-- Adds a declaration of `name`, which becomes a new variable if there is none yet. -/
def declareIn (name : String) (definition : Definition) : List Variable → List Variable
  | [] => [⟨name, [definition]⟩]
  | first :: others =>
      if first.name = name then
        { first with definitions := first.definitions ++ [definition] } :: others
      else first :: declareIn name definition others

end Variable

/-- A scope and the names declared in it. -/
structure Scope where
  id : Nat
  kind : ScopeKind
  span : Span
  parent : Option Nat
  declared : List Variable
deriving Repr, Inhabited

/-- The variable of the scope with the given name. -/
def Scope.find? (scope : Scope) (name : String) : Option Variable :=
  scope.declared.find? fun found => found.name == name

/-- The scopes of a module, each at the index that is its number. -/
structure ScopeTree where
  scopes : Array Scope
deriving Repr, Inhabited

namespace ScopeTree

/-- The number of the module scope. -/
def root : Nat := 0

/-- The tree that holds only the module scope. -/
def ofModule (span : Span) : ScopeTree :=
  { scopes := #[{ id := root, kind := .module, span, parent := none, declared := [] }] }

/-- The number of scopes, which is also the number of the next one. -/
def size (tree : ScopeTree) : Nat := tree.scopes.size

/-- Opens a scope inside the scope `parent`; its number is the size that the tree had. -/
def createScope (tree : ScopeTree) (kind : ScopeKind) (parent : Nat) (span : Span) : ScopeTree :=
  { scopes := tree.scopes.push
      { id := tree.size, kind, span, parent := some parent, declared := [] } }

def declare (tree : ScopeTree) (scope : Nat) (name : String) (definition : Definition) :
    ScopeTree :=
  { scopes := tree.scopes.modify scope fun found =>
      { found with declared := Variable.declareIn name definition found.declared } }

/-- Declares an identifier under its own name. -/
def declareId (tree : ScopeTree) (scope : Nat) (kind : DefinitionKind) (id : Identifier) :
    ScopeTree :=
  tree.declare scope id.name (.of id kind)

/-- Declares each identifier under its own name. -/
def declareAll (tree : ScopeTree) (scope : Nat) (kind : DefinitionKind) (ids : List Identifier) :
    ScopeTree :=
  ids.foldl (fun tree id => tree.declareId scope kind id) tree

/-- At most `bound` scopes of the parent chain, from the given scope on. -/
def chainWithin (tree : ScopeTree) : (bound : Nat) → Option Nat → List Scope
  | 0, _ => []
  | _ + 1, none => []
  | bound + 1, some scope =>
      match tree.scopes[scope]? with
      | none => []
      | some found => found :: tree.chainWithin bound found.parent

/-- The scope and every scope around it, innermost first.  A chain cannot be longer than the
number of scopes. -/
def ancestors (tree : ScopeTree) (scope : Nat) : List Scope :=
  tree.chainWithin tree.size (some scope)

/-- The nearest scope around, or equal to, the given one to which `var` declarations belong. -/
def varScope (tree : ScopeTree) (scope : Nat) : Nat :=
  match (tree.ancestors scope).find? fun found => found.kind.isVarTarget with
  | some found => found.id
  | none => root

/-- The innermost scope that contains the position; the module scope contains every position. -/
def scopeAt (tree : ScopeTree) (position : Nat) : Nat :=
  match tree.scopes.toList.tail.reverse.find? fun scope => scope.span.contains position with
  | some scope => scope.id
  | none => root

/-- The variable that a name refers to inside the scope. -/
def findVariable (tree : ScopeTree) (scope : Nat) (name : String) : Option Variable :=
  (tree.ancestors scope).findSome? fun found => found.find? name

end ScopeTree

end StoreLint
