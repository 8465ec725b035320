import StoreLint.Grammar.Type

/-!
# Functions and object literals

The span of a function starts at its first token: `async`, `function`, or the
first token of the method or the parameters that it belongs to.
-/

namespace StoreLint.Grammar

open StoreLint.Grammar.Parser

/-- Reads as inside a method, where `super` has properties. -/
def inMethod {α : Type} (parser : Parser α) : Parser α :=
  withReader (fun context => { context with allowSuper := true }) parser

/-- Reads as inside a function that is no method. -/
def outsideMethod {α : Type} (parser : Parser α) : Parser α :=
  withReader (fun context => { context with allowSuper := false }) parser

/-- Reads as inside a function. -/
def inFunction {α : Type} (isAsync isGenerator : Bool) (parser : Parser α) : Parser α :=
  withReader
    (fun context =>
      { context with
        inAsync := isAsync
        inGenerator := isGenerator
        allowIn := true
        inLoopHead := false
        inConditional := false
        colonFollows := false })
    parser

def blockBody (rules : Rules) : Parser (List Node) := do
  expectMark .braceLeft
  untilBrace (rules .statement)

def block (rules : Rules) : Parser Node := do
  let start ← here
  let body ← blockBody rules
  return .block (← spanFrom start) body

/-- The body of a function; in a file with types it may be missing. -/
def functionBody (rules : Rules) : Parser (List Node) := do
  if ← atMark .braceLeft then blockBody rules
  else
    require (← isTyped)
    semicolon
    return []

/-- The function that started at `start`, from its type parameters on. -/
def functionRest (rules : Rules) (start : Nat) (own : Option Identifier)
    (isAsync isGenerator : Bool) : Parser Node :=
  inFunction isAsync isGenerator do
    let types ← typeParametersIfAny rules
    let params ← formalParameters rules
    let result ← resultAnnotation rules
    let body ← functionBody rules
    return .functionLike (← spanFrom start) .ordinary own params body (types ++ result)

/-- What stands in front of the parameters of a function. -/
structure FunctionHead where
  isAsync : Bool
  isGenerator : Bool
  name : Option Identifier

/-- The keywords and the name of a function; `name` reads the name. -/
def functionHead (name : Parser (Option Identifier)) : Parser FunctionHead := do
  let isAsync ← eatWord "async"
  expectWord "function"
  let isGenerator ← eatMark .star
  return { isAsync, isGenerator, name := ← name }

def functionExpression (rules : Rules) : Parser Node := do
  let start ← here
  let head ← functionHead bindingIdentifierIfAny
  outsideMethod (functionRest rules start head.name head.isAsync head.isGenerator)

/-- A function declaration that starts at `start`. -/
def functionDeclaration (rules : Rules) (start : Nat) : Parser Node := do
  let head ← functionHead (some <$> bindingIdentifier)
  match head.name with
  | none => failure
  | some name =>
      let function ←
        outsideMethod (functionRest rules start none head.isAsync head.isGenerator)
      return .declaration name function

/-- The arrow function that started at `start`, from its body on. -/
def arrowRest (rules : Rules) (start : Nat) (isAsync : Bool) (params types : List Node) :
    Parser Node := do
  if ← atMark .braceLeft then
    let body ← inFunction isAsync false (blockBody rules)
    return .functionLike (← spanFrom start) .arrow none params body types
  else
    let body ←
      withReader (fun context => { context with inAsync := isAsync, inGenerator := false })
        (rules .assignment)
    return .functionLike (← spanFrom start) .concise none params [body] types

/-- The setter with the parameters: the first of two is `this`, and a setter without parameters
has one that was never written. -/
def setterOf (span : Span) (key : Node) (body : List Node) : (params : List Node) → Node
  | receiver :: param :: _ => .setter span key (some receiver) param body
  | [param] => .setter span key none param body
  | [] => .setter span key none (.compound Span.dummy []) body

/-- The method with the key, from its type parameters on. -/
def methodRest (rules : Rules) (start : Nat) (isAsync isGenerator : Bool) (key : Node) :
    Parser Node := do
  return .methodEntry key (← inMethod (functionRest rules start none isAsync isGenerator))

/-- The accessor or `async` method after the word `name`. -/
def modifiedEntry (rules : Rules) (start : Nat) (name : String) : Parser Node := do
  if name == "async" then
    let isGenerator ← eatMark .star
    methodRest rules start true isGenerator (← propertyKey rules)
  else
    let key ← propertyKey rules
    inMethod <| inFunction false false do
      let params ← formalParameters rules
      let result ← resultAnnotation rules
      let body ← functionBody rules
      let span ← spanFrom start
      if name == "get" then return .getter span key result body
      else return setterOf span key body params

/-- The entry after a key that neither a colon nor parameters follow. -/
def nameEntry (rules : Rules) (start : Nat) (id : Identifier) : Parser Node := do
  let _ ← eatMark .question
  if ← eatMark .assign then
    let value ← bracketed (rules .assignment)
    return .initialized (← spanFrom start) id value
  else if (← atMark .comma) || (← atMark .braceRight) then return .shorthand id
  else
    require (["get", "set", "async"].contains id.name)
    modifiedEntry rules start id.name

/-- The entry after its key.  In a file with types the value after the last key may be
missing. -/
def entryRest (rules : Rules) (start : Nat) (key : Node) : Parser Node := do
  if ← eatMark .colon then return .keyValue key (← bracketed (rules .assignment))
  else if (← atMark .parenLeft) || ((← isTyped) && (← atMark .less)) then
    methodRest rules start false false key
  else match key with
    | .plainKey span (.identifier name) => nameEntry rules start ⟨name, span⟩
    | _ =>
        require ((← isTyped) && (← atMark .braceRight))
        return .keyValue key (.compound (← spanFrom start) [])

def objectEntry (rules : Rules) : Parser Node := do
  let start ← here
  if ← eatMark .ellipsis then
    let inner ← bracketed (rules .assignment)
    return .spread (← spanFrom start) inner
  else if ← eatMark .star then methodRest rules start false true (← propertyKey rules)
  else entryRest rules start (← propertyKey rules)

def objectLiteral (rules : Rules) : Parser Node := do
  let start ← here
  expectMark .braceLeft
  let entries ← commaSeparated .braceRight (objectEntry rules)
  expectMark .braceRight
  return .objectLiteral (← spanFrom start) entries

end StoreLint.Grammar
