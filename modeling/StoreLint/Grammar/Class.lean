import StoreLint.Grammar.Function

/-!
# Classes

Methods and accessors of a class are functions whose span starts at their first
modifier.  The constructor is no function: its body is a block of its own.
-/

namespace StoreLint.Grammar

open StoreLint.Grammar.Parser

/-- Whether the key of a member may start with the token. -/
def startsMember : Token → Bool
  | .word _ _ | .string _ | .number | .bigint | .privateName => true
  | .mark mark => mark == .bracketLeft || mark == .star
  | _ => false

/-- The modifiers of members that belong to types. -/
def typedMemberModifiers : List String :=
  ["public", "private", "protected", "abstract", "override", "readonly", "declare"]

def memberModifiers : Parser (List String) :=
  iterate [] fun read => do
    match ← peek with
    | .word name false =>
        let isModifier :=
          name == "static" || ((← isTyped) && typedMemberModifiers.contains name)
        if isModifier && (← nextSatisfies fun lexeme => startsMember lexeme.token) then
          advance
          return .inl (name :: read)
        else return .inr read
    | _ => return .inr read

/-- Whether the current word is a modifier of the method that follows it. -/
def modifiesMethod (name : String) (sameLine : Bool) : Parser Bool := do
  if ← atWord name then
    nextSatisfies fun lexeme =>
      startsMember lexeme.token && !(sameLine && lexeme.newlineBefore)
  else return false

/-- The constructor that started at `start`, from its parameters on. -/
def constructorRest (rules : Rules) (start : Nat) : Parser Node :=
  inFunction false false do
    let params ← formalParameters rules
    let _ ← resultAnnotation rules
    let body ←
      if ← atMark .braceLeft then some <$> block rules
      else do
        require (← isTyped)
        semicolon
        pure none
    return .classConstructor (← spanFrom start) params body

/-- Whether the key is the name of the constructor. -/
def isConstructorKey : Node → Bool
  | .plainKey _ text => text.name? == some "constructor"
  | _ => false

/-- The field that started at `start`, from what follows its key on.  No field is called
`constructor`, and a semicolon after a field may always be missing. -/
def fieldRest (rules : Rules) (start : Nat) (key : Node) : Parser Node := do
  require (!isConstructorKey key)
  let type ← typeAnnotation rules
  let value ← do
    if ← eatMark .assign then pure [← inFunction false false (rules .assignment)]
    else
      require (type.isSome || (← atStatementEnd))
      pure []
  let _ ← eatMark .semicolon
  return .compound (← spanFrom start) (key :: value ++ type.toList)

/-- Takes the word in front of a field that is read and written by a generated getter and setter,
in a file with types, and tells whether it was there. -/
def eatAccessorWord (modifiers : List String) : Parser Bool := do
  if (← isTyped) && !modifiers.contains "readonly" && (← modifiesMethod "accessor" false) then
    advance
    return true
  else return false

/-- The key of a member and the mark that may follow it in a file with types. -/
def memberKey (rules : Rules) : Parser Node := do
  let key ← propertyKey rules
  unless ← eatTypedMark .question do
    let _ ← eatTypedMark .bang
  return key

def classMember (rules : Rules) : Parser Node := do
  let start ← here
  let modifiers ← memberModifiers
  let isAsync ← modifiesMethod "async" true
  if isAsync then advance
  let isGenerator ← eatMark .star
  let isAccessor ← do
    if isAsync || isGenerator then pure false
    else pure ((← modifiesMethod "get" false) || (← modifiesMethod "set" false))
  if isAccessor then advance
  let index ← do
    if (← isTyped) && (← atMark .bracketLeft) then attempt (indexSignature rules) else pure none
  if index.isSome then
    semicolon
    return .compound (← spanFrom start) (index.getD [])
  else if ← eatAccessorWord modifiers then fieldRest rules start (← memberKey rules)
  else
    let key ← memberKey rules
    if (← atMark .parenLeft) || ((← isTyped) && (← atMark .less)) then
      require !(isAsync && isConstructorKey key)
      if isConstructorKey key && !isGenerator && !isAccessor &&
          !modifiers.contains "static" then
        constructorRest rules start
      else methodRest rules start isAsync isGenerator key
    else
      require (!isAsync && !isGenerator && !isAccessor)
      fieldRest rules start key

/-- The members between the braces of a class. -/
def classBody (rules : Rules) : Parser (List Node) := inMethod do
  expectMark .braceLeft
  let members ← iterate [] fun read => do
    if ← eatMark .braceRight then return .inr read.reverse
    else if ← eatMark .semicolon then return .inl read
    else if (← atWord "static") && (← nextIsMark .braceLeft) then
      advance
      return .inl ((← inFunction false false (block rules)) :: read)
    else return .inl ((← classMember rules) :: read)
  return members

/-- What a class extends, in front of its type arguments. -/
def superclass (rules : Rules) : Parser (Node × List Node) := do
  let parent ← bracketed (rules .leftHandSide)
  return (parent, ← typeArgumentsIfAny rules)

/-- A type that a class implements or an interface extends: a name with type arguments. -/
def heritageType (rules : Rules) : Parser (List Node) := do
  require (match ← peek with | .word _ _ => true | _ => false)
  let name ← rules .newTarget
  return name :: (← typeArgumentsIfAny rules)

/-- The types after the word that says what they are to a class or an interface, if the word is
the current token. -/
def heritageTypes (rules : Rules) (word : String) : Parser (List Node) := do
  if (← isTyped) && (← eatWord word) then
    return (← commaSeparatedOne (heritageType rules)).flatten
  else return []

/-- The class that started at `start`, from its type parameters on. -/
def classRest (rules : Rules) (start : Nat) (own : Option Identifier) : Parser Node := do
  let types ← typeParametersIfAny rules
  let (parent, parentTypes) ← do
    if ← eatWord "extends" then
      let (parent, parentTypes) ← superclass rules
      pure ([parent], parentTypes)
    else pure ([], [])
  if ← eatWord "extends" then let _ ← superclass rules
  let implemented ← heritageTypes rules "implements"
  let members ← classBody rules
  let heritage := parent ++ types ++ parentTypes ++ implemented
  return .classLike (← spanFrom start) own members heritage

def classExpression (rules : Rules) : Parser Node := do
  let start ← here
  expectWord "class"
  classRest rules start (← bindingIdentifierIfAny)

/-- A class declaration that starts at `start`. -/
def classDeclaration (rules : Rules) (start : Nat) : Parser Node := do
  expectWord "class"
  require !(← atWord "let")
  let name ← bindingIdentifier
  return .declaration name (← classRest rules start none)

end StoreLint.Grammar
