import StoreLint.Grammar.Name

/-!
# Binding patterns and parameters

The targets of declarations and the parameters of functions.
-/

namespace StoreLint.Grammar

open StoreLint.Grammar.Parser

/-- The pattern with the default that follows it, if there is one. -/
def withDefault (rules : Rules) (start : Nat) (target : Node) : Parser Node := do
  if ← eatMark .assign then
    let value ← bracketed (rules .assignment)
    return .defaulted (← spanFrom start) target value
  else return target

def bindingElement (rules : Rules) : Parser Node := do
  let start ← here
  withDefault rules start (← rules .pattern)

def restElement (rules : Rules) : Parser Node := do
  let start ← here
  expectMark .ellipsis
  let inner ← rules .pattern
  return .restPattern (← spanFrom start) inner

/-- An array pattern; holes are left out. -/
def arrayPattern (rules : Rules) : Parser Node := do
  let start ← here
  expectMark .bracketLeft
  let elements ← iterate [] fun read => do
    if ← atMark .bracketRight then return .inr read.reverse
    else if ← eatMark .comma then return .inl read
    else
      let element ←
        if ← atMark .ellipsis then restElement rules else bindingElement rules
      unless ← atMark .bracketRight do expectMark .comma
      return .inl (element :: read)
  expectMark .bracketRight
  return .arrayPattern (← spanFrom start) elements

def patternProperty (rules : Rules) : Parser Node := do
  if ← atMark .ellipsis then restElement rules
  else
    let start ← here
    let key ← propertyKey rules
    if ← eatMark .colon then return .keyValue key (← bindingElement rules)
    else match key with
      | .plainKey span (.identifier name) =>
          if ← eatMark .assign then
            let value ← bracketed (rules .assignment)
            return .initialized (← spanFrom start) ⟨name, span⟩ value
          else return .shorthand ⟨name, span⟩
      | _ => failure

def objectPattern (rules : Rules) : Parser Node := do
  let start ← here
  expectMark .braceLeft
  let properties ← commaSeparated .braceRight (patternProperty rules)
  expectMark .braceRight
  return .objectPattern (← spanFrom start) properties

def pattern (rules : Rules) : Parser Node := do
  if ← atMark .bracketLeft then arrayPattern rules
  else if ← atMark .braceLeft then objectPattern rules
  else return .identifier (← bindingIdentifier)

/-- The pattern that starts at `start`, with the type that follows it, if there is one. -/
def withAnnotation (rules : Rules) (start : Nat) (target : Node) : Parser Node := do
  match ← typeAnnotation rules with
  | some type => return .annotated (← spanFrom start) target type
  | none => return target

/-- The words that may stand in front of a parameter of a constructor. -/
def parameterModifiers : List String :=
  ["public", "private", "protected", "readonly", "override"]

/-- Takes the modifiers in front of a parameter. -/
def skipParameterModifiers : Parser Unit := do
  let _ ← whileTrue
    (do
      match ← peek with
      | .word name false =>
          if (← isTyped) && parameterModifiers.contains name then
            nextSatisfies fun lexeme => startsBinding lexeme.token
          else return false
      | _ => return false)
    advance

def formalParameter (rules : Rules) : Parser Node := do
  let start ← here
  if ← eatMark .ellipsis then
    let target ← rules .pattern
    let inner ← withDefault rules start target
    let rest := .restPattern (← spanFrom start) inner
    let param ← withAnnotation rules start rest
    let _ ← eatTypedMark .question
    return param
  else
    skipParameterModifiers
    let targetStart ← here
    let target ← rules .pattern
    let _ ← eatTypedMark .question
    withDefault rules start (← withAnnotation rules targetStart target)

/-- The parameters of a function between parentheses. -/
def formalParameters (rules : Rules) : Parser (List Node) := do
  expectMark .parenLeft
  let params ← bracketed (commaSeparated .parenRight (formalParameter rules))
  expectMark .parenRight
  return params

end StoreLint.Grammar
