import StoreLint.Grammar.Class
import StoreLint.Grammar.Markup

/-!
# Expressions

The head of an arrow function and an expression in parentheses start alike, so the
items between the parentheses are read as expressions first and become parameters
when an arrow follows.  An arrow function ends the expression that it starts: no
operator, call or access applies to it, except that operators after a block body are
accepted.  An operand may be missing after an operator such as `!`, and in front of
the first operator between operands.
-/

namespace StoreLint.Grammar

open StoreLint.Grammar.Parser

/-- Whether the node is an arrow function without parentheses around it. -/
def isArrow : Node → Bool
  | .functionLike _ .arrow _ _ _ _ => true
  | .functionLike _ .concise _ _ _ _ => true
  | _ => false

/-- An expression or a spread one. -/
def spreadable (rules : Rules) : Parser Node := do
  let start ← here
  if ← eatMark .ellipsis then
    let inner ← rules .assignment
    return .spread (← spanFrom start) inner
  else rules .assignment

/-- The arguments of a call between parentheses. -/
def arguments (rules : Rules) : Parser (List Node) := do
  expectMark .parenLeft
  let args ← bracketed (commaSeparated .parenRight (spreadable rules))
  expectMark .parenRight
  return args

/-- An array literal; holes are left out. -/
def arrayLiteral (rules : Rules) : Parser Node := do
  let start ← here
  expectMark .bracketLeft
  let elements ← bracketed <| iterate [] fun read => do
    if ← atMark .bracketRight then return .inr read.reverse
    else if ← eatMark .comma then return .inl read
    else
      let element ← spreadable rules
      unless ← atMark .bracketRight do expectMark .comma
      return .inl (element :: read)
  expectMark .bracketRight
  return .arrayLiteral (← spanFrom start) elements

def template (rules : Rules) : Parser Node := do
  let start ← here
  let parts ← templateParts (bracketed (expression rules))
  return .compound (← spanFrom start) parts

/-- A regular expression, whose first slash is the current token. -/
def regExp : Parser Node := do
  let lexeme := (← get).current
  match readRegExp lexeme.span.lo lexeme.text with
  | none => unclosed
  | some reading =>
      moveTo reading.position reading.rest
      return .literal ⟨lexeme.span.lo, reading.position⟩ .other

/-- The precedence of the operator at the current token, the tightest being one, and how many
characters it takes after the token. -/
def operatorAt : Parser (Option (Nat × Nat)) := do
  let lexeme := (← get).current
  match lexeme.token with
  | .mark mark =>
      match mark with
      | .power => return some (1, 0)
      | .star | .slash | .percent => return some (2, 0)
      | .plus | .minus => return some (3, 0)
      | .shiftLeft => return some (4, 0)
      | .less | .lessEqual => return some (5, 0)
      | .greater =>
          match lexeme.rest with
          | '>' :: '>' :: '=' :: _ => return none
          | '>' :: '=' :: _ => return none
          | '>' :: '>' :: _ => return some (4, 2)
          | '>' :: _ => return some (4, 1)
          | '=' :: _ => return some (5, 1)
          | _ => return some (5, 0)
      | .equal | .notEqual | .strictEqual | .strictNotEqual => return some (6, 0)
      | .ampersand => return some (7, 0)
      | .caret => return some (8, 0)
      | .bar => return some (9, 0)
      | .logicalAnd => return some (10, 0)
      | .logicalOr | .coalesce => return some (11, 0)
      | _ => return none
  | .word "instanceof" false => return some (5, 0)
  | .word "in" false => return if (← read).allowIn then some (5, 0) else none
  | _ => return none

/-- Whether the current token is an operator between operands that is a mark. -/
def atOperatorMark : Parser Bool := do
  match ← peek with
  | .mark _ => return (← operatorAt).isSome
  | _ => return false

/-- Takes an operator that goes on for `extra` characters after the current token. -/
def takeOperator (extra : Nat) : Parser Unit := do
  let lexeme := (← get).current
  extendTo ⟨lexeme.span.hi + extra, lexeme.rest.drop extra⟩
  advance

def typeSuffix (rules : Rules) (start : Nat) (inner : Node) : Parser Node := do
  if ← eatWord "as" then
    if ← eatWord "const" then return .wrapped (← spanFrom start) .asConst inner []
    else
      let type ← rules .type
      return .wrapped (← spanFrom start) .asType inner [type]
  else
    expectWord "satisfies"
    let type ← rules .type
    return .wrapped (← spanFrom start) .satisfiesType inner [type]

/-- Whether a type suffix follows on the same line. -/
def atTypeSuffix : Parser Bool := do
  return (← isTyped) && !(← afterNewline) && ((← atWord "as") || (← atWord "satisfies"))

/-- Whether the operator for powers applies to the operand: an operator or `await` in front of
it must be in parentheses. -/
def takesPower : Node → Bool
  | .operation _ operation _ => operation != .prefixed && operation != .awaited
  | _ => true

/-- The expression that starts with the operand `first` at `start`, joined with those after it by
operators of precedence `level` or tighter. -/
def binaryRest (rules : Rules) (start : Nat) : (level : Nat) → (first : Node) → Parser Node
  | 0, first => return first
  | level + 1, first => do
      let left ← binaryRest rules start level first
      iterate (left, left) fun (left, last) => do
        if level + 1 == 5 && (← atTypeSuffix) then
          let wrapped ← typeSuffix rules start left
          return .inl (wrapped, wrapped)
        else match ← operatorAt with
          | some (precedence, extra) =>
              if precedence == level + 1 then
                takeOperator extra
                require (level != 0 || takesPower last)
                let rightStart ← here
                let operand ← rules .unary
                let right ←
                  if isArrow operand then pure operand
                  else binaryRest rules rightStart level operand
                return .inl (.operation (← spanFrom start) .binary [left, right], right)
              else return .inr left
          | none => return .inr left

/-- The number of levels of precedence. -/
def loosestLevel : Nat := 11

/-- Operands joined by operators.  Where the first operand cannot be read, the operator after it
may go on without one. -/
def binary (rules : Rules) : Parser Node := do
  let start ← here
  match ← recover (rules .unary) with
  | some first =>
      if isArrow first then return first else binaryRest rules start loosestLevel first
  | none =>
      require (← operatorAt).isSome
      let missing := (← get).current.span
      binaryRest rules missing.lo loosestLevel (.compound missing [])

/-- The branches of a conditional expression whose test has been read. -/
def conditionalRest (rules : Rules) (start : Nat) (test : Node) : Parser Node := do
  expectMark .question
  let consequent ←
    withReader
      (fun context =>
        { context with allowIn := true, inConditional := true, colonFollows := true })
      (rules .assignment)
  expectMark .colon
  let alternate ←
    withReader (fun context => { context with inConditional := true, colonFollows := false })
      (rules .assignment)
  return .operation (← spanFrom start) .conditional [test, consequent, alternate]

/-- A conditional expression, or what stands in the place of its test. -/
def conditional (rules : Rules) : Parser Node := do
  let start ← here
  let test ← binary rules
  if isArrow test then return test
  else if ← atMark .question then conditionalRest rules start test
  else return test

/-- How many characters an assignment operator takes after the current token, if there is
one. -/
def assignmentOperator : Parser (Option Nat) := do
  let lexeme := (← get).current
  match lexeme.token with
  | .mark .assign | .mark .assignSlash | .mark .assignOther => return some 0
  | .mark .greater =>
      match lexeme.rest with
      | '>' :: '>' :: '=' :: _ => return some 3
      | '>' :: '=' :: _ => return some 2
      | _ => return none
  | _ => return none

/-- The assignment to `target`, if an assignment operator follows it.  Only the plain operator
assigns to patterns. -/
def assignmentRest (rules : Rules) (start : Nat) (target : Node) : Parser Node := do
  match ← assignmentOperator with
  | none => return target
  | some extra =>
      let isPlain ← atMark .assign
      require (if isPlain then target.isTarget else target.isSimpleTarget)
      takeOperator extra
      let value ← rules .assignment
      return .assignment (← spanFrom start) (if isPlain then target.toPattern else target) value

/-- What stands between the parentheses of an expression or an arrow function. -/
inductive ParenItem where
  | expression (node : Node)
  | spread (node : Node)
  | pattern (node : Node)

/-- Whether a question mark makes a parameter optional when the token follows it. -/
def followsOptional : Token → Bool
  | .mark mark => mark == .comma || mark == .assign || mark == .colon || mark == .parenRight
  | _ => false

/-- Allows an arrow function to start at the current token. -/
def markArrowStart : Parser Unit := do
  let start ← here
  modify fun state => { state with arrowStart := some start }

/-- The parameter of an arrow function in front of a type that ends at `finish`; a name takes in
its type. -/
def reaching (finish : Nat) : Node → Node
  | .identifier id => .identifier ⟨id.name, ⟨id.span.lo, finish⟩⟩
  | node => node

/-- A parameter that has been read as an expression, with the type and the default that follow. -/
def annotatedItem (rules : Rules) (start : Nat) (isRest : Bool) (target : Node) :
    Parser ParenItem := do
  require target.fitsPattern
  let pattern := target.toPattern
  let pattern ← do
    if isRest then pure (.restPattern (← spanFrom start) pattern) else pure pattern
  let pattern ← do
    match ← typeAnnotation rules with
    | some type =>
        let span ← spanFrom start
        pure (.annotated span (reaching span.hi pattern) type)
    | none => pure pattern
  return .pattern (← withDefault rules start pattern)

/-- The item whose expression has been read, in a file with types. -/
def typedItem (rules : Rules) (start : Nat) (isRest : Bool) (node : Node) :
    Parser ParenItem := do
  let isOptional ← do
    if ← atMark .question then nextSatisfies fun lexeme => followsOptional lexeme.token
    else pure false
  if isOptional then
    advance
    require (match node with | .identifier _ => true | _ => false)
    annotatedItem rules start isRest node
  else if ← atMark .colon then annotatedItem rules start isRest node
  else if isRest then return .spread node
  else if ← atMark .question then return .expression (← conditionalRest rules start node)
  else return .expression node

/-- One item between parentheses. -/
def parenItem (rules : Rules) : Parser ParenItem := do
  skipParameterModifiers
  let start ← here
  let isRest ← eatMark .ellipsis
  if ← isTyped then
    if isNameToken (← peek) then
        markArrowStart
        let inner ← here
        let node ← binary rules
        let node ← if isArrow node then pure node else assignmentRest rules inner node
        typedItem rules start isRest node
    else typedItem rules start isRest (← rules .assignment)
  else
    let node ← rules .assignment
    return if isRest then .spread node else .expression node

/-- Whether the parameter takes all arguments that are left. -/
def isRestParameter (param : Node) : Bool :=
  match param.untyped with
  | .restPattern _ _ => true
  | _ => false

/-- The parameters that items stand for when an arrow follows.  A rest parameter counts only in
the last place. -/
def paramsOfItems : List ParenItem → List Node
  | [] => []
  | [.expression node] => [node.toPattern]
  | [.spread node] => [.restPattern node.span node.toPattern]
  | [.pattern node] => [node]
  | .expression node :: items => node.toPattern :: paramsOfItems items
  | .spread _ :: items => paramsOfItems items
  | .pattern node :: items =>
      if isRestParameter node then paramsOfItems items else node :: paramsOfItems items

def ParenItem.node : ParenItem → Node
  | .expression node => node
  | .spread node => node
  | .pattern node => node

/-- The arrow function with the items as its parameters, from its body on. -/
def arrowOfItems (rules : Rules) (start : Nat) (isAsync : Bool) (items : List ParenItem)
    (types : List Node) : Parser Node := do
  require (items.all fun item => item.node.fitsPattern)
  arrowRest rules start isAsync (paramsOfItems items) types

/-- The arrow function with the items as its parameters; operators after a block body are
accepted. -/
def arrowWithOperators (rules : Rules) (start : Nat) (isAsync : Bool) (items : List ParenItem)
    (types : List Node) : Parser Node := do
  let arrow ← arrowOfItems rules start isAsync items types
  match arrow with
  | .functionLike _ .arrow _ _ _ _ =>
      if ← atOperatorMark then binaryRest rules start loosestLevel arrow else return arrow
  | _ => return arrow

/-- The expressions that items are when no arrow follows. -/
def expressionsOfItems : List ParenItem → Option (List Node)
  | [] => some []
  | .expression node :: items => (expressionsOfItems items).map (node :: ·)
  | _ :: _ => none

/-- The arguments that items are when they follow a name. -/
def argumentsOfItems : List ParenItem → Option (List Node)
  | [] => some []
  | .expression node :: items => (argumentsOfItems items).map (node :: ·)
  | .spread node :: items => (argumentsOfItems items).map (.spread node.span node :: ·)
  | .pattern _ :: _ => none

/-- The expression in parentheses that holds the items. -/
def parenthesesOfItems (span : Span) (items : List ParenItem) : Parser Node := do
  match expressionsOfItems items with
  | none | some [] => failure
  | some [single] => return .wrapped span .parentheses single []
  | some (first :: second :: rest) =>
      let last := (second :: rest).getLastD second
      let sequence := .compound (Span.cover first.span last.span) (first :: second :: rest)
      return .wrapped span .parentheses sequence []

def parenItems (rules : Rules) : Parser (List ParenItem) := do
  expectMark .parenLeft
  let items ← bracketed (commaSeparated .parenRight (parenItem rules))
  expectMark .parenRight
  return items

def ParenItem.isPattern : ParenItem → Bool
  | .pattern _ => true
  | _ => false

/-- The type of the result of an arrow function, if the arrow follows it. -/
def arrowResult (rules : Rules) : Parser (Option (List Node)) := do
  if (← isTyped) && !(← read).colonFollows && (← atMark .colon) then
    attempt do
      let result ← resultAnnotation rules
      require (← atMark .arrow)
      return result
  else return none

/-- An arrow function with a result type inside a conditional expression, if its body is
followed by what the conditional expression needs. -/
def conditionalArrow (rules : Rules) (start : Nat) (isAsync : Bool) (items : List ParenItem) :
    Parser (Option Node) := do
  let context ← read
  if context.dialect.typed && context.inConditional && (← atMark .colon) then
    attempt do
      let result ← resultAnnotation rules
      expectMark .arrow
      let arrow ← arrowOfItems rules start isAsync items result
      if context.colonFollows then require (← atMark .colon)
      return arrow
  else return none

/-- An expression in parentheses, an arrow function or, after the word `async`, a call. -/
def parenOrArrow (rules : Rules) (start : Nat) (canBeArrow : Bool)
    (asyncWord : Option Identifier) : Parser Node := do
  let items ← parenItems rules
  match ← conditionalArrow rules start asyncWord.isSome items with
  | some arrow => return arrow
  | none =>
      let result ← arrowResult rules
      if result.isSome || (← atMark .arrow) || items.any ParenItem.isPattern then
        require (canBeArrow && !(← afterNewline))
        expectMark .arrow
        arrowWithOperators rules start asyncWord.isSome items (result.getD [])
      else match asyncWord with
        | some word =>
            match argumentsOfItems items with
            | none => failure
            | some args => return .call (← spanFrom start) (.identifier word) args []
        | none => parenthesesOfItems (← spanFrom start) items

/-- What starts with the word `async` that has been read. -/
def asyncRest (rules : Rules) (start : Nat) (canBeArrow : Bool) (word : Identifier) :
    Parser Node := do
  if ← atMark .parenLeft then parenOrArrow rules start canBeArrow (some word)
  else if (← isTyped) && (← atMark .less) then
    let arrow ← attempt do
      let types ← typeParameters rules
      let items ← parenItems rules
      let result ← arrowResult rules
      expectMark .arrow
      arrowOfItems rules start true items (types ++ result.getD [])
    return arrow.getD (.identifier word)
  else if canBeArrow && isNameToken (← peek) then
    let isLoopHead := (← read).inLoopHead && (← atWord "of") && !(← nextIsMark .arrow)
    if isLoopHead then return .identifier word
    else
      let param ← bindingIdentifier
      expectMark .arrow
      arrowRest rules start true [.identifier param] []
  else return .identifier word

/-- What starts with a word that is no keyword. -/
def wordExpression (rules : Rules) (start : Nat) (canBeArrow : Bool) : Parser Node := do
  let isPlainAsync ← atWord "async"
  let token ← peek
  require (isNameToken token || token == .word "let" false)
  let word ← identifierName
  if canBeArrow && (← atMark .arrow) && !(← afterNewline) then
    advance
    arrowRest rules start false [.identifier word] []
  else if isPlainAsync && !(← afterNewline) then asyncRest rules start canBeArrow word
  else return .identifier word

/-- An expression without operators, calls or accesses around it. -/
def primary (rules : Rules) : Parser Node := do
  let start ← here
  let canBeArrow := (← get).arrowStart == some start
  match ← peek with
  | .number | .bigint =>
      advance
      return .literal (← spanFrom start) .other
  | .string value =>
      advance
      return .literal (← spanFrom start) (.string value)
  | .privateName =>
      advance
      return .compound (← spanFrom start) []
  | .mark .bracketLeft => arrayLiteral rules
  | .mark .braceLeft => objectLiteral rules
  | .mark .parenLeft => parenOrArrow rules start canBeArrow none
  | .mark .backquote => template rules
  | .mark .slash | .mark .assignSlash => regExp
  | .mark .less =>
      require (← hasMarkup)
      let element ← rules .markup
      advance
      return element
  | .word "this" false =>
      advance
      return .compound (← spanFrom start) []
  | .word "null" false =>
      advance
      return .literal (← spanFrom start) .other
  | .word "true" false =>
      advance
      return .literal (← spanFrom start) (.boolean true)
  | .word "false" false =>
      advance
      return .literal (← spanFrom start) (.boolean false)
  | .word "function" false => functionExpression rules
  | .word "class" false => classExpression rules
  | .word "async" false =>
      let isFunction ← nextSatisfies fun lexeme =>
        lexeme.token == .word "function" false && !lexeme.newlineBefore
      if isFunction then functionExpression rules else wordExpression rules start canBeArrow
  | .word _ _ => wordExpression rules start canBeArrow
  | _ => failure

/-- The access to a property by the name at the current token. -/
def namedMember (start : Nat) (object : Node) : Parser Node := do
  match ← peek with
  | .privateName =>
      advance
      return .reference (← spanFrom start) [object]
  | _ =>
      let name ← identifierName
      return .member (← spanFrom start) object name.name

/-- The access to a property by a key in brackets. -/
def indexedMember (rules : Rules) (start : Nat) (object : Node) : Parser Node := do
  expectMark .bracketLeft
  let key ← bracketed (expression rules)
  expectMark .bracketRight
  return .index (← spanFrom start) object key

/-- The call with the arguments that follow; in an optional chain it is no call of its own. -/
def callRest (rules : Rules) (start : Nat) (chained : Bool) (callee : Node) (types : List Node) :
    Parser Node := do
  let args ← arguments rules
  let span ← spanFrom start
  if chained then return .reference span (callee :: args ++ types)
  else return .call span callee args types

/-- The node as a link of an optional chain, if it is one. -/
def linked (chained : Bool) (node : Node) : Node :=
  if chained then .reference node.span [node] else node

/-- Whether type arguments may end an expression when the token follows them. -/
def endsInstantiation (lexeme : Lexeme) : Bool :=
  lexeme.newlineBefore ||
    match lexeme.token with
    | .finish => true
    | .mark mark =>
        [Mark.parenRight, .bracketRight, .braceRight, .colon, .semicolon, .comma, .dot,
          .optionalDot, .equal, .notEqual, .strictEqual, .strictNotEqual, .logicalAnd, .logicalOr,
          .coalesce, .caret, .bar, .ampersand, .assign, .question].contains mark
    | _ => false

/-- The optional link after the mark that makes it one. -/
def optionalLink (rules : Rules) (start : Nat) (object : Node) : Parser Node := do
  if ← atMark .parenLeft then callRest rules start true object []
  else if ← atMark .bracketLeft then return linked true (← indexedMember rules start object)
  else if (← isTyped) && (← atMark .less) then
    let types ← typeArguments rules
    callRest rules start true object types
  else return linked true (← namedMember start object)

/-- What type arguments after an expression belong to: a call, a template or nothing. -/
def instantiation (rules : Rules) (start : Nat) (allowCalls chained : Bool) (object : Node) :
    Parser Node := do
  let types ← typeArguments rules
  if allowCalls && (← atMark .parenLeft) then callRest rules start chained object types
  else if ← atMark .backquote then
    let parts ← templateParts (bracketed (expression rules))
    return .compound (← spanFrom start) (object :: types ++ parts)
  else
    require (endsInstantiation (← get).current)
    return .reference (← spanFrom start) (object :: types)

/-- One access, call or template after an expression; tells with it whether the expression is
an optional chain so far. -/
def subscript (rules : Rules) (start : Nat) (allowCalls : Bool) (read : Node × Bool) :
    Parser ((Node × Bool) ⊕ Node) := do
  let (object, chained) := read
  if isArrow object then return .inr object
  else match ← peek with
    | .mark .dot =>
        advance
        return .inl (linked chained (← namedMember start object), chained)
    | .mark .optionalDot =>
        require allowCalls
        advance
        return .inl (← optionalLink rules start object, true)
    | .mark .bracketLeft =>
        return .inl (linked chained (← indexedMember rules start object), chained)
    | .mark .parenLeft =>
        if allowCalls then return .inl (← callRest rules start chained object [], chained)
        else return .inr object
    | .mark .backquote =>
        let parts ← templateParts (bracketed (expression rules))
        return .inl (.compound (← spanFrom start) (object :: parts), false)
    | .mark .bang =>
        if (← isTyped) && !(← afterNewline) then
          advance
          return .inl (.wrapped (← spanFrom start) .nonNull object [], chained)
        else return .inr object
    | .mark .less =>
        if ← isTyped then
          match ← attempt (instantiation rules start allowCalls chained object) with
          | some node => return .inl (node, chained)
          | none => return .inr object
        else return .inr object
    | _ => return .inr object

/-- The expression with the accesses and calls that follow it. -/
def subscripts (rules : Rules) (start : Nat) (allowCalls : Bool) (object : Node) :
    Parser Node :=
  iterate (object, false) (subscript rules start allowCalls)

/-- A construction, with or without arguments. -/
def construction (rules : Rules) : Parser Node := do
  let start ← here
  expectWord "new"
  if ← eatMark .dot then
    expectWord "target"
    return .compound (← spanFrom start) []
  else
    let callee ← rules .newTarget
    let types ← do
      if (← isTyped) && (← atMark .less) then attempt (typeArguments rules) else pure none
    let args ← if ← atMark .parenLeft then arguments rules else pure []
    return .compound (← spanFrom start) (callee :: args ++ types.getD [])

/-- What is constructed: an expression without calls. -/
def newTarget (rules : Rules) : Parser Node := do
  let start ← here
  let target ← if ← atWord "new" then construction rules else primary rules
  subscripts rules start false target

def superExpression (rules : Rules) : Parser Node := do
  let start ← here
  expectWord "super"
  let keyword := .compound (← spanFrom start) []
  if ← atMark .parenLeft then
    let args ← arguments rules
    return .call (← spanFrom start) keyword args []
  else
    require (← read).allowSuper
    if ← eatMark .dot then
      let _ ← namedMember start keyword
      return .reference (← spanFrom start) []
    else
      match ← indexedMember rules start keyword with
      | .index span _ key => return .reference span [key]
      | node => return node

/-- The import of a module by a call, from its arguments on.  Only a file with types may have a
comma after the last argument. -/
def importCall (rules : Rules) (start : Nat) : Parser Node := do
  let keyword := .compound (← spanFrom start) []
  expectMark .parenLeft
  let args ← do
    if ← isTyped then bracketed (commaSeparated .parenRight (spreadable rules))
    else if ← atMark .parenRight then pure []
    else bracketed (commaSeparatedOne (spreadable rules))
  expectMark .parenRight
  return .call (← spanFrom start) keyword args []

/-- What starts with `import` inside an expression. -/
def importExpression (rules : Rules) : Parser Node := do
  let start ← here
  expectWord "import"
  if ← eatMark .dot then
    let name ← identifierName
    if name.name == "meta" then return .compound (← spanFrom start) []
    else
      require (name.name == "source" || name.name == "defer")
      importCall rules start
  else importCall rules start

/-- An expression with its accesses and calls. -/
def leftHandSide (rules : Rules) : Parser Node := do
  let start ← here
  let target ←
    if ← atWord "new" then construction rules
    else if ← atWord "super" then superExpression rules
    else if ← atWord "import" then importExpression rules
    else primary rules
  subscripts rules start true target

/-- Whether the token is an operator in front of an operand. -/
def isPrefixOperator : Token → Bool
  | .word name false => name == "delete" || name == "void" || name == "typeof"
  | .mark mark => mark == .plus || mark == .minus || mark == .tilde || mark == .bang
  | _ => false

/-- An operator in front of an operand, which may be missing. -/
def prefixed (rules : Rules) : Parser Node := do
  let start ← here
  advance
  let operandStart ← here
  match ← recover (rules .unary) with
  | some operand => return .operation ⟨start, operand.span.hi⟩ .prefixed [operand]
  | none => return .operation ⟨start, operandStart - 1⟩ .prefixed []

/-- Whether `await` is a name here, after it was read outside of an `async` function. -/
def atAwaitNameEnd : Parser Bool := do
  return (← atStatementEnd) || (← atMark .parenRight) || (← atMark .bracketRight) ||
    (← atMark .comma)

def awaitExpression (rules : Rules) : Parser Node := do
  let start ← here
  let word ← identifierName
  if !(← read).inAsync && (← atAwaitNameEnd) then return .identifier word
  else
    let operand ← rules .unary
    return .operation (← spanFrom start) .awaited [operand]

def typeAssertion (rules : Rules) : Parser Node := do
  let start ← here
  expectMark .less
  let isConst ← follows do
    expectWord "const"
    atMark .greater
  let types ← do
    if isConst then
      advance
      pure []
    else pure [← rules .type]
  expectMark .greater
  let operand ← rules .unary
  let wrapper : Wrapper := if isConst then .asConst else .typeAssertion
  return .wrapped (← spanFrom start) wrapper operand types

/-- An expression with the operators in front of it and right after it. -/
def unary (rules : Rules) : Parser Node := do
  let start ← here
  let token ← peek
  if isPrefixOperator token then prefixed rules
  else if token == .mark .increment || token == .mark .decrement then
    advance
    let operand ← rules .unary
    return .operation (← spanFrom start) .update [operand]
  else if token == .word "await" false then awaitExpression rules
  else if token == .mark .less && (← isTyped) && !(← hasMarkup) then typeAssertion rules
  else
    let operand ← leftHandSide rules
    if !isArrow operand && !(← afterNewline) &&
        ((← atMark .increment) || (← atMark .decrement)) then
      advance
      return .operation (← spanFrom start) .update [operand]
    else return operand

/-- The keywords that an expression may start with. -/
def expressionKeywords : List String :=
  ["await", "class", "delete", "false", "function", "import", "new", "null", "super", "this",
   "true", "typeof", "void"]

/-- Whether an expression may start with the token. -/
def startsExpression : Token → Bool
  | .word name _ => !isReserved name || expressionKeywords.contains name
  | .mark mark =>
      [Mark.parenLeft, .bracketLeft, .braceLeft, .plus, .minus, .tilde, .bang, .increment,
        .decrement, .backquote, .less, .slash, .assignSlash].contains mark
  | .finish => false
  | _ => true

def yieldExpression (rules : Rules) : Parser Node := do
  let start ← here
  expectWord "yield"
  if ← eatMark .star then
    let operand ← rules .assignment
    return .compound (← spanFrom start) [operand]
  else if (← atStatementEnd) || !startsExpression (← peek) then
    return .compound (← spanFrom start) []
  else
    let operand ← rules .assignment
    return .compound (← spanFrom start) [operand]

def genericArrow (rules : Rules) : Parser Node := do
  let start ← here
  let types ← typeParameters rules
  let items ← parenItems rules
  let result ← arrowResult rules
  require !(← afterNewline)
  expectMark .arrow
  arrowOfItems rules start false items (types ++ result.getD [])

/-- Whether an arrow function may start with the token. -/
def startsArrow : Token → Bool
  | .word _ _ => true
  | .mark mark => mark == .parenLeft
  | _ => false

/-- Whether operators have made an expression that no assignment follows. -/
def isClosedOperation : Node → Bool
  | .operation _ operation _ => operation != .awaited
  | _ => false

/-- An expression that may stand between commas. -/
def assignment (rules : Rules) : Parser Node := do
  let start ← here
  let token ← peek
  let generic ← do
    if token == .mark .less && (← isTyped) then attempt (genericArrow rules) else pure none
  match generic with
  | some arrow => return arrow
  | none =>
      if token == .word "yield" false && (← read).inGenerator then yieldExpression rules
      else
        modify fun state =>
          { state with arrowStart := if startsArrow token then some start else none }
        let target ← conditional rules
        if isArrow target || isClosedOperation target then return target
        else assignmentRest rules start target

end StoreLint.Grammar
