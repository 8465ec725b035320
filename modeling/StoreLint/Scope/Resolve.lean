import StoreLint.Scope.Tree

/-!
# Resolution

An identifier is followed to its declaration, a declaration to the value it stands
for, one step at a time.  Resolution is lexical: assignments after the declaration
and values from other files are not followed.
-/

namespace StoreLint

/-- Why an analysis cannot go on. -/
inductive AnalysisError where
  | unresolvedBinding (name : String)
  | emptyDefinition (name : String)
  | missingReturn (name : String)
  | missingAnchor
  | unknownMessage (id : String)
deriving DecidableEq, Repr, Inhabited

def AnalysisError.message : AnalysisError → String
  | .unresolvedBinding name => s!"cannot find variable assigned to identifier '{name}'"
  | .emptyDefinition name => s!"cannot find definition of variable '{name}'"
  | .missingReturn name => s!"function '{name}' has no return statement"
  | .missingAnchor => "node has no key to report at"
  | .unknownMessage id => s!"rule has no message with id '{id}'"

namespace Node

mutual

/-- The first `return` of a statement that belongs to the function around the statement: the
value it returns, if it returns one.  Expressions and declarations are not entered. -/
def firstReturn : Node → Option (Option Node)
  | .returns _ value => some value
  | .block _ body => firstReturnList body
  | .nested _ _ bodies => firstReturnList bodies
  | .loop _ _ body => body.firstReturn
  | .catches _ _ body => firstReturnList body
  | .switch _ _ cases => firstReturnList cases
  | _ => none

/-- The first `return` of a list of statements. -/
def firstReturnList : List Node → Option (Option Node)
  | [] => none
  | statement :: statements =>
      match statement.firstReturn with
      | some value => some value
      | none => firstReturnList statements

end

/-- Whether the expression, without its wrappers, is a function. -/
def isFunction : Node → Bool
  | .functionLike _ _ _ _ _ _ => true
  | _ => false

/-- The function that an expression is, once its wrappers are taken off. -/
def asFunction? (node : Node) : Option Node :=
  if node.unwrap.isFunction then some node.unwrap else none

def parameters : Node → List Node
  | .functionLike _ _ _ params _ _ => params
  | _ => []

/-- The statements of a function, or the expression that is the body of an arrow. -/
def functionBody : Node → List Node
  | .functionLike _ _ _ _ body _ => body
  | _ => []

/-- The expression that a function returns: the body of a concise arrow, or the value of the
first `return`. -/
def returned? : Node → Option Node
  | .functionLike _ .concise _ _ body _ => body.head?
  | .functionLike _ _ _ _ body _ => (firstReturnList body).join
  | _ => none

end Node

namespace Definition

/-- The value that a declaration stands for: the initial value of a variable, or what a function
declaration returns. -/
def value? (definition : Definition) : Except AnalysisError (Option Node) :=
  match definition.kind with
  | .binding init => .ok init
  | .functionName function =>
      match Node.firstReturnList function.functionBody with
      | some value => .ok value
      | none => .error (.missingReturn definition.name)
  | _ => .ok none

def function? (definition : Definition) : Option Node :=
  match definition.kind with
  | .functionName function => some function
  | .binding (some init) => init.asFunction?
  | _ => none

end Definition

namespace ScopeTree

/-- The declaration that an identifier refers to.  Of several, the last one counts. -/
def resolve (tree : ScopeTree) (id : Identifier) : Except AnalysisError Definition :=
  match tree.findVariable (tree.scopeAt id.span.lo) id.name with
  | none => .error (.unresolvedBinding id.name)
  | some found =>
      match found.definitions.getLast? with
      | none => .error (.emptyDefinition found.name)
      | some definition => .ok definition

end ScopeTree

end StoreLint
