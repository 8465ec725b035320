import StoreLint.Source.Span

/-!
# Syntax trees

The tree keeps what the analyses look at: bindings, scopes, object literals,
functions, calls and member accesses.  Every other form is a `compound`
(expressions) or a `nested` (statements) of its parts in evaluation order, and a
form without parts of interest has none.  An expression statement is its
expression, and a type is a `compound` of the expressions inside it.

Parts are listed in the order in which analyses visit them.  It is the order of
the source, except that a class lists its members before what it extends, a `do`
loop its test before its body, and a function, call or assertion its types last.
-/

namespace StoreLint

/-- A name as it is spelled at one place; escapes in the spelling are decoded. -/
structure Identifier where
  name : String
  span : Span
deriving DecidableEq, Repr, Inhabited

/-- The values of literals that analyses compare with. -/
inductive Literal where
  /-- A string, without a value when it holds an unpaired surrogate. -/
  | string (value : Option String)
  | boolean (value : Bool)
  /-- Numbers, `null` and regular expressions. -/
  | other
deriving DecidableEq, Repr, Inhabited

/-- Forms that stand for the value of the expression inside them. -/
inductive Wrapper where
  | parentheses
  | asType
  | satisfiesType
  | asConst
  | nonNull
  | typeAssertion
deriving DecidableEq, Repr, Inhabited

/-- The expressions that operators make. -/
inductive Operation where
  /-- An operator such as `!` or `typeof` in front of an operand. -/
  | prefixed
  /-- `await` in front of an operand. -/
  | awaited
  /-- An increment or decrement. -/
  | update
  /-- An operator between two operands. -/
  | binary
  | conditional
deriving DecidableEq, Repr, Inhabited

/-- How a function is written. -/
inductive FunctionForm where
  /-- Declarations, `function` expressions and methods. -/
  | ordinary
  /-- An arrow with a block body. -/
  | arrow
  /-- An arrow whose body is one expression. -/
  | concise
deriving DecidableEq, Repr, Inhabited

/-- Where the names of a variable declaration live. -/
inductive VariableKind where
  /-- `var`: the enclosing function or the module. -/
  | hoisted
  /-- `let` and `const`: the enclosing scope. -/
  | lexical
deriving DecidableEq, Repr, Inhabited

/-- The spelling of a property key that is not computed. -/
inductive KeyText where
  | identifier (name : String)
  /-- A string key, without a value when it holds an unpaired surrogate. -/
  | string (value : Option String)
  /-- Numbers, and the private names of classes. -/
  | unnamed
deriving DecidableEq, Repr, Inhabited

/-- The name that a key is known by, if its spelling fixes one. -/
def KeyText.name? : KeyText → Option String
  | .identifier name => some name
  | .string value => value
  | .unnamed => none

/-- A node of the syntax tree of a module. -/
inductive Node where
  | identifier (id : Identifier)
  | literal (span : Span) (value : Literal)
  /-- An object literal and its entries. -/
  | objectLiteral (span : Span) (entries : List Node)
  /-- An array literal without its holes. -/
  | arrayLiteral (span : Span) (elements : List Node)
  /-- A function; `own` is the name that a function expression binds inside itself.
  A function without a body has an empty one. -/
  | functionLike (span : Span) (form : FunctionForm) (own : Option Identifier)
      (params body types : List Node)
  /-- A class; `own` is the name that a class expression binds inside itself.  Its heritage is
  what it extends, followed by the types at its head. -/
  | classLike (span : Span) (own : Option Identifier) (members heritage : List Node)
  /-- A call that is not part of an optional chain. -/
  | call (span : Span) (callee : Node) (args types : List Node)
  /-- Access to a property by name. -/
  | member (span : Span) (object : Node) (name : String)
  /-- Access to a property by a computed key. -/
  | index (span : Span) (object key : Node)
  /-- Any other form that can be assigned to: access to a property by a private name, of `super`
  or in an optional chain, and a value with type arguments. -/
  | reference (span : Span) (parts : List Node)
  | assignment (span : Span) (target value : Node)
  | wrapped (span : Span) (wrapper : Wrapper) (inner : Node) (types : List Node)
  | operation (span : Span) (operation : Operation) (operands : List Node)
  /-- Any other expression, and any other form that is made of expressions. -/
  | compound (span : Span) (parts : List Node)
  /-- The entry or pattern property that is only a name. -/
  | shorthand (id : Identifier)
  /-- The entry or pattern property that is a name with a default. -/
  | initialized (span : Span) (id : Identifier) (value : Node)
  /-- An entry, a pattern property or a class field with a key and a value. -/
  | keyValue (key value : Node)
  | getter (span : Span) (key : Node) (types body : List Node)
  /-- A setter; in front of its parameter a parameter `this` may stand. -/
  | setter (span : Span) (key : Node) (receiver : Option Node) (param : Node) (body : List Node)
  | methodEntry (key function : Node)
  | spread (span : Span) (inner : Node)
  | plainKey (span : Span) (text : KeyText)
  | computedKey (span : Span) (inner : Node)
  | arrayPattern (span : Span) (elements : List Node)
  | objectPattern (span : Span) (properties : List Node)
  | restPattern (span : Span) (inner : Node)
  /-- A pattern with a default value. -/
  | defaulted (span : Span) (target value : Node)
  /-- A pattern with a type. -/
  | annotated (span : Span) (target type : Node)
  | block (span : Span) (body : List Node)
  | returns (span : Span) (value : Option Node)
  /-- Any other statement: what it evaluates, then the statements inside it. -/
  | nested (span : Span) (heads bodies : List Node)
  /-- Every form of `for`: its head, then its body. -/
  | loop (span : Span) (heads : List Node) (body : Node)
  | catches (span : Span) (param : Option Node) (body : List Node)
  | switch (span : Span) (discriminant : Node) (cases : List Node)
  | variableList (span : Span) (kind : VariableKind) (declarators : List Node)
  | declarator (target : Node) (init : Option Node)
  /-- A function or class that binds `id` in the scope around it. -/
  | declaration (id : Identifier) (value : Node)
  | imports (span : Span) (locals : List Identifier) (source : String) (attributes : Option Node)
  /-- The constructor of a class and the block that is its body. -/
  | classConstructor (span : Span) (params : List Node) (body : Option Node)
deriving Repr, Inhabited

/-- How much of a tree is looked at. -/
inductive Extent where
  | whole
  /-- What scopes are made of: the types of functions and getters, the parameter `this` of a setter
  and the attributes of an import are left aside. -/
  | scopes
deriving DecidableEq, Repr, Inhabited

/-- What stands at a place that scopes leave aside. -/
def Extent.aside {α : Type} : Extent → List α → List α
  | .whole, items => items
  | .scopes, _ => []

namespace Node

def span : Node → Span
  | .identifier id => id.span
  | .literal span _ => span
  | .objectLiteral span _ => span
  | .arrayLiteral span _ => span
  | .functionLike span _ _ _ _ _ => span
  | .classLike span _ _ _ => span
  | .call span _ _ _ => span
  | .member span _ _ => span
  | .index span _ _ => span
  | .reference span _ => span
  | .assignment span _ _ => span
  | .wrapped span _ _ _ => span
  | .operation span _ _ => span
  | .compound span _ => span
  | .shorthand id => id.span
  | .initialized span _ _ => span
  | .keyValue key value => Span.cover key.span value.span
  | .getter span _ _ _ => span
  | .setter span _ _ _ _ => span
  | .methodEntry key function => ⟨min key.span.lo function.span.lo, function.span.hi⟩
  | .spread span _ => span
  | .plainKey span _ => span
  | .computedKey span _ => span
  | .arrayPattern span _ => span
  | .objectPattern span _ => span
  | .restPattern span _ => span
  | .defaulted span _ _ => span
  | .annotated span _ _ => span
  | .block span _ => span
  | .returns span _ => span
  | .nested span _ _ => span
  | .loop span _ _ => span
  | .catches span _ _ => span
  | .switch span _ _ => span
  | .variableList span _ _ => span
  | .declarator target none => target.span
  | .declarator target (some init) => Span.cover target.span init.span
  | .declaration _ value => value.span
  | .imports span _ _ _ => span
  | .classConstructor span _ _ => span

/-- The parts of a node in visiting order, as far as the extent goes. -/
def parts (extent : Extent) : Node → List Node
  | .identifier _ => []
  | .literal _ _ => []
  | .objectLiteral _ entries => entries
  | .arrayLiteral _ elements => elements
  | .functionLike _ _ _ params body types => params ++ body ++ extent.aside types
  | .classLike _ _ members heritage => members ++ heritage
  | .call _ callee args types => callee :: args ++ types
  | .member _ object _ => [object]
  | .index _ object key => [object, key]
  | .reference _ parts => parts
  | .assignment _ target value => [target, value]
  | .wrapped _ _ inner types => inner :: types
  | .operation _ _ operands => operands
  | .compound _ parts => parts
  | .shorthand _ => []
  | .initialized _ _ value => [value]
  | .keyValue key value => [key, value]
  | .getter _ key types body => key :: extent.aside types ++ body
  | .setter _ key receiver param body => key :: extent.aside receiver.toList ++ param :: body
  | .methodEntry key function => [key, function]
  | .spread _ inner => [inner]
  | .plainKey _ _ => []
  | .computedKey _ inner => [inner]
  | .arrayPattern _ elements => elements
  | .objectPattern _ properties => properties
  | .restPattern _ inner => [inner]
  | .defaulted _ target value => [target, value]
  | .annotated _ target type => [target, type]
  | .block _ body => body
  | .returns _ value => value.toList
  | .nested _ heads bodies => heads ++ bodies
  | .loop _ heads body => heads ++ [body]
  | .catches _ param body => param.toList ++ body
  | .switch _ discriminant cases => discriminant :: cases
  | .variableList _ _ declarators => declarators
  | .declarator target init => target :: init.toList
  | .declaration _ value => [value]
  | .imports _ _ _ attributes => extent.aside attributes.toList
  | .classConstructor _ params body => params ++ body.toList

def untyped : Node → Node
  | .annotated _ target _ => target.untyped
  | node => node

/-- The expression inside any number of wrappers. -/
def unwrap : Node → Node
  | .wrapped _ _ inner _ => inner.unwrap
  | node => node

end Node

end StoreLint
