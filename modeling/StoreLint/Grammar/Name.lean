import StoreLint.Grammar.Parser
import StoreLint.Tree.Pattern

/-!
# Names, keys and type annotations

The small rules that the rest of the grammar shares.  Rules for types give the
expressions in them, in visiting order.
-/

namespace StoreLint.Grammar

open StoreLint.Grammar.Parser

/-- The words that can never be the name of a binding. -/
def reservedWords : List String :=
  ["break", "case", "catch", "class", "const", "continue", "debugger", "default", "delete", "do",
   "else", "enum", "export", "extends", "false", "finally", "for", "function", "if", "import",
   "in", "instanceof", "new", "null", "return", "super", "switch", "this", "throw", "true", "try",
   "typeof", "var", "void", "while", "with"]

/-- Whether the word can never be the name of a binding. -/
def isReserved (name : String) : Bool := reservedWords.contains name

/-- The words that a binding may be called by though they are no names in the code of a
module. -/
def strictWords : List String :=
  ["await", "implements", "interface", "let", "package", "private", "protected", "public",
   "static", "yield"]

/-- Whether the word is a name in the code of a module. -/
def isName (name : String) : Bool := !(isReserved name || strictWords.contains name)

/-- Whether the token is a name in the code of a module. -/
def isNameToken : Token → Bool
  | .word name _ => isName name
  | _ => false

/-- Whether a binding may start with the token. -/
def startsBinding : Token → Bool
  | .word name _ => !isReserved name
  | .mark mark => mark == .bracketLeft || mark == .braceLeft
  | _ => false

def identifierName : Parser Identifier := do
  match ← peek with
  | .word name _ =>
      let start ← here
      advance
      return ⟨name, ← spanFrom start⟩
  | _ => failure

/-- The name of a binding.  The word `enum` is accepted, and `this` in a file with types. -/
def bindingIdentifier : Parser Identifier := do
  match ← peek with
  | .word name _ =>
      let isAccepted := name == "enum" || (name == "this" && (← isTyped))
      require (isAccepted || !(isReserved name || name == "await"))
      identifierName
  | _ => failure

/-- The name of a binding that may be missing. -/
def bindingIdentifierIfAny : Parser (Option Identifier) := do
  let token ← peek
  if isNameToken token || (token == .word "this" false && (← isTyped)) then
    some <$> bindingIdentifier
  else return none

/-- A property key; private names are keys of classes only. -/
def propertyKey (rules : Rules) : Parser Node := do
  let start ← here
  match ← peek with
  | .word name _ =>
      advance
      return .plainKey (← spanFrom start) (.identifier name)
  | .string value =>
      advance
      return .plainKey (← spanFrom start) (.string value)
  | .number | .bigint | .privateName =>
      advance
      return .plainKey (← spanFrom start) .unnamed
  | .mark .bracketLeft =>
      advance
      let inner ← bracketed (rules .assignment)
      expectMark .bracketRight
      return .computedKey (← spanFrom start) inner
  | _ => failure

/-- One or more assignment expressions with commas between them. -/
def expression (rules : Rules) : Parser Node := do
  let start ← here
  match ← commaSeparatedOne (rules .assignment) with
  | [single] => return single
  | parts => return .compound (← spanFrom start) parts

/-- An expression between parentheses, such as the test of a statement. -/
def parenthesized (rules : Rules) : Parser Node := do
  expectMark .parenLeft
  let inner ← bracketed (expression rules)
  expectMark .parenRight
  return inner

def typeArguments (rules : Rules) : Parser (List Node) := do
  expectMark .less
  let types ← commaSeparated .greater (rules .type)
  expectMark .greater
  return types

/-- Type arguments, where a file may hold types and they are present. -/
def typeArgumentsIfAny (rules : Rules) : Parser (List Node) := do
  if (← isTyped) && (← atMark .less) then typeArguments rules else return []

/-- The words that may stand in front of a type parameter. -/
def typeParameterModifiers : List String := ["const", "in", "out"]

/-- The type after the word, if the word is the current token. -/
def typeAfterWord (rules : Rules) (word : String) : Parser (List Node) := do
  if ← eatWord word then return [← rules .type] else return []

/-- One type parameter with its bound and default. -/
def typeParameter (rules : Rules) : Parser (List Node) := do
  let _ ← whileTrue
    (do
      match ← peek with
      | .word name false =>
          if typeParameterModifiers.contains name then
            nextSatisfies fun lexeme => match lexeme.token with | .word _ _ => true | _ => false
          else return false
      | _ => return false)
    advance
  let _ ← identifierName
  let bound ← typeAfterWord rules "extends"
  let default ← if ← eatMark .assign then pure [← rules .type] else pure []
  return bound ++ default

def typeParameters (rules : Rules) : Parser (List Node) := do
  expectMark .less
  let params ← commaSeparated .greater (typeParameter rules)
  expectMark .greater
  return params.flatten

/-- Type parameters, where a file may hold types and they are present. -/
def typeParametersIfAny (rules : Rules) : Parser (List Node) := do
  if (← isTyped) && (← atMark .less) then typeParameters rules else return []

/-- The type after a colon, if a file may hold types and there is one. -/
def typeAnnotation (rules : Rules) : Parser (Option Node) := do
  if ← eatTypedMark .colon then return some (← bracketed (rules .type)) else return none

/-- The name in front of `is` in a type predicate. -/
def predicateSubject : Parser Unit := do
  if !(← eatWord "this") then let _ ← bindingIdentifier

/-- A type in the place of a result: also a predicate, and an assertion about an argument. -/
def resultType (rules : Rules) : Parser (List Node) := do
  let isAssertion ← follows do
    expectWord "asserts"
    require !(← afterNewline)
    predicateSubject
    return true
  if isAssertion then
    expectWord "asserts"
    predicateSubject
    typeAfterWord rules "is"
  else
    let isPredicate ← follows do
      predicateSubject
      return (← atWord "is") && !(← afterNewline)
    if isPredicate then
      predicateSubject
      expectWord "is"
    return [← rules .type]

/-- The type of a result after a colon, if there is one. -/
def resultAnnotation (rules : Rules) : Parser (List Node) := do
  if ← eatTypedMark .colon then bracketed (resultType rules) else return []

end StoreLint.Grammar
