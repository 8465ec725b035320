import StoreLint.Grammar.Function

/-!
# Markup

An element is a compound of the expressions in its attributes and its children.
The rule for an element stops at its last angle bracket and does not take it,
because the text after it may be text of the element around it.
-/

namespace StoreLint.Grammar

open StoreLint.Grammar.Parser

/-- One part of the name of an element or attribute; dashes belong to it. -/
def markupWord : Parser String := do
  let lexeme := (← get).current
  match lexeme.token with
  | .word name _ =>
      let (more, reading) := readMarkupName [] lexeme.span.hi lexeme.rest
      extendTo reading
      advance
      return name ++ String.ofList more
  | _ => failure

def markupName : Parser String := do
  let first ← markupWord
  iterate first fun name => do
    if ← eatMark .dot then return .inl (name ++ "." ++ (← markupWord))
    else if ← eatMark .colon then return .inl (name ++ ":" ++ (← markupWord))
    else return .inr name

/-- An expression between braces; the closing brace is left. -/
def markupExpression (rules : Rules) : Parser (List Node) := do
  expectMark .braceLeft
  if ← atMark .braceRight then return []
  else
    let _ ← eatMark .ellipsis
    let inner ← bracketed (expression rules)
    require (← atMark .braceRight)
    return [inner]

def attributeValue (rules : Rules) : Parser (List Node) := do
  let lexeme := (← get).current
  match lexeme.token, lexeme.text with
  | .string value, quote :: rest =>
      match readMarkupString quote (lexeme.span.lo + 1) rest with
      | none => unclosed
      | some reading =>
          moveTo reading.position reading.rest
          return [.literal ⟨lexeme.span.lo, reading.position⟩ (.string value)]
  | .mark .braceLeft, _ =>
      let parts ← markupExpression rules
      require (!parts.isEmpty)
      expectMark .braceRight
      return parts
  | .mark .less, _ =>
      let element ← rules .markup
      advance
      return [element]
  | _, _ => failure

/-- An attribute of an element, or attributes that are spread into it. -/
def elementAttribute (rules : Rules) : Parser (List Node) := do
  if ← eatMark .braceLeft then
    expectMark .ellipsis
    let inner ← bracketed (rules .assignment)
    expectMark .braceRight
    return [inner]
  else
    let _ ← markupName
    if ← eatMark .assign then attributeValue rules else return []

/-- Takes a closing tag up to its last angle bracket, which is left. -/
def closingTag (name : String) : Parser Unit := do
  expectMark .less
  expectMark .slash
  let closing ← if ← atMark .greater then pure "" else markupName
  require (closing == name && (← atMark .greater))

/-- The children of an element, from the angle bracket of its opening tag up to the one of its
closing tag. -/
def markupChildren (rules : Rules) (name : String) : Parser (List Node) :=
  iterate [] fun read => do
    let lexeme := (← get).current
    match readMarkupText lexeme.span.hi lexeme.rest with
    | none => unclosed
    | some reading =>
        moveTo reading.position reading.rest
        if ← atMark .braceLeft then
          return .inl ((← markupExpression rules).reverse ++ read)
        else if ← nextIsMark .slash then
          closingTag name
          return .inr read.reverse
        else return .inl ((← rules .markup) :: read)

def markup (rules : Rules) : Parser Node := do
  let start ← here
  expectMark .less
  let parts ← do
    if ← atMark .greater then markupChildren rules ""
    else
      let name ← markupName
      let types ← typeArgumentsIfAny rules
      let attributes ←
        whileTrue (return !((← atMark .slash) || (← atMark .greater))) (elementAttribute rules)
      if ← eatMark .slash then
        require (← atMark .greater)
        pure (attributes.flatten ++ types)
      else
        let children ← markupChildren rules name
        pure (attributes.flatten ++ types ++ children)
  return .compound ⟨start, (← get).current.span.hi⟩ parts

end StoreLint.Grammar
