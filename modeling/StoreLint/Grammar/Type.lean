import StoreLint.Grammar.Pattern

/-!
# Types

Of a type the expressions in it are kept, such as the computed keys of its members:
a type is a compound of them.
-/

namespace StoreLint.Grammar

open StoreLint.Grammar.Parser

/-- The parameters of a signature.  They have no defaults. -/
def signatureParameters (rules : Rules) : Parser (List Node) := do
  let params ← formalParameters rules
  require (params.all fun param => match param with | .defaulted _ _ _ => false | _ => true)
  return params

def functionTypeRest (rules : Rules) : Parser (List Node) := do
  let types ← typeParametersIfAny rules
  let params ← signatureParameters rules
  expectMark .arrow
  let result ← resultType rules
  return params ++ types ++ result

/-- A signature: type parameters, parameters and the type of the result. -/
def signature (rules : Rules) : Parser (List Node) := do
  let types ← typeParametersIfAny rules
  let params ← signatureParameters rules
  let result ← resultAnnotation rules
  return params ++ result ++ types

/-- Takes dotted names. -/
def entityName : Parser Unit := do
  let _ ← identifierName
  let _ ← whileTrue (eatMark .dot) identifierName

/-- Takes a template; expressions in it are read with `inner`. -/
def templateParts (inner : Parser Node) : Parser (List Node) := do
  require (← atMark .backquote)
  iterate [] fun read => do
    let lexeme := (← get).current
    match readTemplateChunk false lexeme.span.hi lexeme.rest with
    | none => unclosed
    | some (true, reading) =>
        moveTo reading.position reading.rest
        return .inr read.reverse
    | some (false, reading) =>
        moveTo reading.position reading.rest
        let part ← inner
        require (← atMark .braceRight)
        return .inl (part :: read)

/-- Whether a type may follow a type operator with this token. -/
def startsType : Token → Bool
  | .word name _ => name != "extends" && name != "is"
  | .string _ | .number | .bigint => true
  | .mark mark =>
      mark == .parenLeft || mark == .bracketLeft || mark == .braceLeft || mark == .less ||
        mark == .backquote || mark == .minus
  | _ => false

/-- Takes the separator after a member of an object type. -/
def memberSeparator : Parser Unit := do
  unless ← eatEither .semicolon .comma do
    require ((← atMark .braceRight) || (← afterNewline))

def typeProperty (rules : Rules) : Parser (List Node) := do
  let key ← propertyKey rules
  let _ ← eatMark .question
  if (← atMark .parenLeft) || (← atMark .less) then return key :: (← signature rules)
  else return key :: (← typeAnnotation rules).toList

/-- An index signature, or the key of a mapped type and its type. -/
def indexSignature (rules : Rules) : Parser (List Node) := do
  expectMark .bracketLeft
  let _ ← identifierName
  if ← eatMark .colon then
    let index ← rules .type
    expectMark .bracketRight
    return index :: (← typeAnnotation rules).toList
  else
    expectWord "in"
    let index ← rules .type
    let renamed ← typeAfterWord rules "as"
    expectMark .bracketRight
    if ← eatEither .plus .minus then expectMark .question
    else let _ ← eatMark .question
    return index :: renamed ++ (← typeAnnotation rules).toList

/-- Takes a word in front of a member if a member follows it. -/
def memberModifier (name : String) : Parser Unit := do
  if ← atWord name then
    let isModifier ← nextSatisfies fun lexeme =>
      match lexeme.token with
      | .word _ _ | .string _ | .number | .bigint | .privateName => true
      | .mark mark => mark == .bracketLeft
      | _ => false
    if isModifier then advance

def typeMember (rules : Rules) : Parser (List Node) := do
  if (← atMark .plus) || (← atMark .minus) then
    advance
    expectWord "readonly"
  else memberModifier "readonly"
  let parts ← do
    if (← atMark .parenLeft) || (← atMark .less) then signature rules
    else
      let isConstruct ← follows do
        expectWord "new"
        return (← atMark .parenLeft) || (← atMark .less)
      if isConstruct then
        advance
        signature rules
      else match ← attempt (indexSignature rules) with
        | some parts => pure parts
        | none =>
            memberModifier "get"
            memberModifier "set"
            typeProperty rules
  memberSeparator
  return parts

/-- The members of an object type or an interface. -/
def typeMembers (rules : Rules) : Parser (List Node) := do
  expectMark .braceLeft
  return (← untilMark .braceRight (typeMember rules)).flatten

def tupleElement (rules : Rules) : Parser Node := do
  let _ ← eatMark .ellipsis
  let isNamed ← follows do
    let _ ← identifierName
    let _ ← eatMark .question
    atMark .colon
  if isNamed then
    let _ ← identifierName
    let _ ← eatMark .question
    expectMark .colon
  let type ← rules .type
  let _ ← eatMark .question
  return type

/-- The type arguments that follow on the same line, if there are any. -/
def typeArgumentsOnLine (rules : Rules) : Parser (List Node) := do
  if (← atMark .less) && !(← afterNewline) then typeArguments rules else return []

/-- The attributes after the source of a module in a type. -/
def importTypeAttributes (rules : Rules) : Parser Node := do
  expectMark .braceLeft
  expectWord "with"
  expectMark .colon
  let attributes ← rules .objectLiteral
  let _ ← eatMark .comma
  expectMark .braceRight
  return attributes

/-- The type that a module exports, from the parentheses around its source on. -/
def importType (rules : Rules) : Parser (List Node) := do
  expectMark .parenLeft
  advance
  let attributes ← if ← eatMark .comma then pure [← importTypeAttributes rules] else pure []
  expectMark .parenRight
  let _ ← whileTrue (eatMark .dot) identifierName
  let types ← if ← atMark .less then typeArguments rules else pure []
  return attributes ++ types

/-- An operand of a type without operators around it. -/
def primaryType (rules : Rules) : Parser (List Node) := do
  match ← peek with
  | .string _ | .number | .bigint =>
      advance
      return []
  | .mark .minus =>
      advance
      require ((← peek) == .number || (← peek) == .bigint)
      advance
      return []
  | .mark .backquote => templateParts (rules .type)
  | .mark .parenLeft =>
      match ← attempt (functionTypeRest rules) with
      | some parts => return parts
      | none =>
          advance
          let inner ← rules .type
          expectMark .parenRight
          return [inner]
  | .mark .less => functionTypeRest rules
  | .mark .bracketLeft =>
      advance
      let elements ← commaSeparated .bracketRight (tupleElement rules)
      expectMark .bracketRight
      return elements
  | .mark .braceLeft => typeMembers rules
  | .word name _ =>
      let isConstructor ← follows do
        let _ ← eatWord "abstract"
        expectWord "new"
        return (← atMark .parenLeft) || (← atMark .less)
      if isConstructor then
        let _ ← eatWord "abstract"
        expectWord "new"
        functionTypeRest rules
      else if name == "import" then
        advance
        importType rules
      else if name == "typeof" then
        advance
        let parts ← do
          if ← atWord "import" then pure [← rules .type]
          else
            entityName
            pure []
        return parts ++ (← typeArgumentsOnLine rules)
      else
        require (!isReserved name || ["void", "null", "true", "false", "this"].contains name)
        entityName
        typeArgumentsOnLine rules
  | _ => failure

/-- An operand of a type: prefix operators, the operand, and array or index suffixes. -/
def typeOperand (rules : Rules) : Parser (List Node) := do
  let _ ← whileTrue
    (do
      match ← peek with
      | .word name false =>
          if ["keyof", "unique", "readonly", "infer"].contains name then
            nextSatisfies fun lexeme => startsType lexeme.token && !lexeme.newlineBefore
          else return false
      | _ => return false)
    advance
  let operand ← primaryType rules
  let suffixes ← whileTrue (return (← atMark .bracketLeft) && !(← afterNewline)) do
    expectMark .bracketLeft
    let index ← if ← atMark .bracketRight then pure [] else pure [← rules .type]
    expectMark .bracketRight
    return index
  return operand ++ suffixes.flatten

def unionType (rules : Rules) : Parser (List Node) := do
  let _ ← eatEither .bar .ampersand
  let first ← typeOperand rules
  let more ← whileTrue (eatEither .bar .ampersand) do
    let _ ← eatEither .bar .ampersand
    typeOperand rules
  return first ++ more.flatten

def type (rules : Rules) : Parser Node := do
  let start ← here
  let checked ← unionType rules
  if (← atWord "extends") && !(← afterNewline) then
    advance
    let bound ← unionType rules
    expectMark .question
    let consequent ← rules .type
    expectMark .colon
    let alternate ← rules .type
    return .compound (← spanFrom start) (checked ++ bound ++ [consequent, alternate])
  else return .compound (← spanFrom start) checked

end StoreLint.Grammar
