import StoreLint.Grammar.Expression

/-!
# Statements and declarations

A statement that only evaluates is its expression.  A declaration of types is a
compound of the expressions in them.
-/

namespace StoreLint.Grammar

open StoreLint.Grammar.Parser

/-- A statement without parts that starts at `start`. -/
def inert (start : Nat) : Parser Node := return .compound (← spanFrom start) []

/-- Where variables are declared. -/
inductive VariablePlace where
  | statement
  /-- In the head of a loop, where the loop may give them their values. -/
  | loop
  /-- After `declare`, where they have no values. -/
  | ambient
deriving DecidableEq, Repr

/-- Whether the value of a declared target may be missing: that of a pattern must be given,
except after `const`. -/
def valueMayBeMissing (keyword : String) (target : Node) : Bool :=
  match target.untyped with
  | .identifier _ => true
  | _ => keyword == "const"

/-- One declared target with its value.  No name that `let` or `const` declares is `let`. -/
def variableDeclarator (rules : Rules) (place : VariablePlace) (keyword : String) :
    Parser Node := do
  require (keyword == "var" || !(← atWord "let"))
  let start ← here
  let target ← rules .pattern
  match target with
  | .identifier _ =>
      let _ ← eatTypedMark .bang
  | _ => pure ()
  let target ← withAnnotation rules start target
  if ← eatMark .assign then return .declarator target (some (← rules .assignment))
  else
    let isLoopVariable := place == .loop && ((← atWord "of") || (← atWord "in"))
    require (isLoopVariable || place == .ambient || valueMayBeMissing keyword target)
    return .declarator target none

/-- The declared targets with commas between them; after a comma, and after the keyword, there
may be none. -/
def variableDeclarators (rules : Rules) (place : VariablePlace) (keyword : String) :
    Parser (List Node) :=
  iterate [] fun read => do
    if (← atMark .semicolon) || (← peek) == .finish then return .inr read.reverse
    else
      let declarator ← variableDeclarator rules place keyword
      if ← eatMark .comma then return .inl (declarator :: read)
      else return .inr (declarator :: read).reverse

/-- The kind of variable that a keyword declares. -/
def variableKind (keyword : String) : VariableKind :=
  if keyword == "var" then .hoisted else .lexical

/-- A variable declaration without its semicolon.  Only after `var` in the head of a loop is `in`
no operator. -/
def variableList (rules : Rules) (place : VariablePlace) (start : Nat) : Parser Node := do
  let keyword ← identifierName
  let allowIn := place != .loop || keyword.name != "var"
  let declarators ←
    withReader (fun context => { context with allowIn })
      (variableDeclarators rules place keyword.name)
  return .variableList (← spanFrom start) (variableKind keyword.name) declarators

/-- Takes everything up to the end of the statement. -/
def skipStatement : Parser Unit := do
  let _ ← whileTrue (return !(← eatSemicolon)) advance

/-- A variable declaration.  Where its semicolon is missing, the rest of the statement counts for
nothing. -/
def variableStatement (rules : Rules) (place : VariablePlace) (start : Nat) : Parser Node := do
  let node ← variableList rules place start
  unless ← eatSemicolon do
    let _ ← recover (expression rules)
    skipStatement
  return node

/-- Whether the name of a resource follows the word `using`, which is the current token. -/
def usingDeclares : Parser Bool :=
  nextSatisfies fun lexeme => isNameToken lexeme.token && !lexeme.newlineBefore

/-- Whether a declaration of resources starts at the current token. -/
def atResources : Parser Bool := do
  if ← atWord "using" then usingDeclares
  else if ← atWord "await" then
    follows do
      advance
      require (← atWord "using")
      usingDeclares
  else return false

/-- A declaration of resources, which are released at the end of the block.  A semicolon after it
is an empty statement, and a name needs no value. -/
def resourceDeclaration (rules : Rules) (start : Nat) : Parser Node := do
  let _ ← eatWord "await"
  expectWord "using"
  let declarators ← variableDeclarators rules .ambient "var"
  return .compound (← spanFrom start) declarators

/-- Whether a declaration starts at the current token, which is `let`. -/
def letDeclares : Parser Bool :=
  nextSatisfies fun lexeme => startsBinding lexeme.token

/-- Whether a variable declaration starts at the current token. -/
def atVariables : Parser Bool := do
  if (← atWord "var") || (← atWord "const") then return true
  else if ← atWord "let" then letDeclares
  else return false

/-- The end of an expression statement; operators after an arrow function are accepted. -/
def expressionEnd (rules : Rules) (start : Nat) (node : Node) : Parser Node := do
  if ← eatSemicolon then return node
  else
    require (← atOperatorMark)
    binaryRest rules start loosestLevel node

/-- An expression statement, or a statement with a label. -/
def expressionStatement (rules : Rules) : Parser Node := do
  let start ← here
  let node ← bracketed (expression rules)
  match node with
  | .identifier _ =>
      if ← eatMark .colon then
        let body ← rules .substatement
        return .nested (← spanFrom start) [] [body]
      else expressionEnd rules start node
  | _ => expressionEnd rules start node

/-- A statement that starts with `import`: a call or an access, which need not end. -/
def importStatement (rules : Rules) : Parser Node := do
  let isExpression ← nextSatisfies fun lexeme =>
    lexeme.token == .mark .parenLeft || lexeme.token == .mark .dot
  require isExpression
  let node ← bracketed (expression rules)
  let _ ← eatMark .semicolon
  return node

/-- A conditional statement. -/
def ifStatement (rules : Rules) (start : Nat) : Parser Node := do
  expectWord "if"
  let test ← parenthesized rules
  let consequent ← rules .substatement
  let alternate ← do
    if ← eatWord "else" then pure [← rules .substatement] else pure []
  return .nested (← spanFrom start) [test] (consequent :: alternate)

/-- An expression, unless the mark is the current token. -/
def expressionUnless (rules : Rules) (mark : Mark) : Parser (List Node) := do
  if ← atMark mark then return [] else return [← bracketed (expression rules)]

/-- The head of a loop whose first part has been read.  Only a loop over values awaits them. -/
def loopHead (rules : Rules) (isAwaited : Bool) (first : List Node) : Parser (List Node) := do
  if ← eatWord "of" then
    require (first.all Node.fitsPattern)
    let right ← bracketed (rules .assignment)
    return first.map Node.toPattern ++ [right]
  else if ← eatWord "in" then
    require (!isAwaited && first.all Node.fitsPattern)
    let right ← bracketed (expression rules)
    return first.map Node.toPattern ++ [right]
  else
    require (!isAwaited)
    expectMark .semicolon
    let test ← expressionUnless rules .semicolon
    expectMark .semicolon
    let update ← expressionUnless rules .parenRight
    return first ++ test ++ update

/-- The declaration of a resource in the head of a loop over values, whose first words have been
read as an expression, or that expression. -/
def loopResource (start : Nat) (first : Node) : Parser Node := do
  let isUsing :=
    match first with
    | .identifier word => word.name == "using"
    | .operation _ .awaited [.identifier word] => word.name == "using"
    | _ => false
  let isDeclared ← nextSatisfies fun lexeme =>
    lexeme.token == .word "of" false || lexeme.token == .word "in" false
  if (← isTyped) && isUsing && !(← atWord "of") && isDeclared then
    let resource ← bindingIdentifier
    return .compound (← spanFrom start) [.declarator (.identifier resource) none]
  else return first

def forStatement (rules : Rules) (start : Nat) : Parser Node := do
  expectWord "for"
  let isAwaited ← eatWord "await"
  expectMark .parenLeft
  let first ← do
    if ← atMark .semicolon then pure []
    else
      withReader (fun context => { context with allowIn := false, inLoopHead := true }) do
        let start ← here
        if ← atVariables then pure [← variableList rules .loop start]
        else pure [← loopResource start (← expression rules)]
  let heads ← loopHead rules isAwaited first
  expectMark .parenRight
  let body ← rules .substatement
  return .loop (← spanFrom start) heads body

def whileStatement (rules : Rules) (start : Nat) : Parser Node := do
  expectWord "while"
  let test ← parenthesized rules
  let body ← rules .substatement
  return .nested (← spanFrom start) [test] [body]

def doStatement (rules : Rules) (start : Nat) : Parser Node := do
  expectWord "do"
  let body ← rules .substatement
  expectWord "while"
  let test ← parenthesized rules
  let _ ← eatMark .semicolon
  return .nested (← spanFrom start) [test] [body]

/-- Whether the statements of a case end at the current token. -/
def atCaseEnd : Parser Bool := do
  return (← atWord "case") || (← atWord "default") || (← atMark .braceRight)

def switchCase (rules : Rules) : Parser Node := do
  let start ← here
  let test ← do
    if ← eatWord "default" then pure []
    else
      expectWord "case"
      pure [← bracketed (expression rules)]
  expectMark .colon
  let body ← whileTrue (return !(← atCaseEnd)) (rules .statement)
  return .nested (← spanFrom start) test body

/-- Whether the node is a case without a test. -/
def isDefaultCase : Node → Bool
  | .nested _ [] _ => true
  | _ => false

/-- A `switch` statement; it has at most one default case. -/
def switchStatement (rules : Rules) (start : Nat) : Parser Node := do
  expectWord "switch"
  let discriminant ← parenthesized rules
  expectMark .braceLeft
  let cases ← untilMark .braceRight (switchCase rules)
  require (cases.countP isDefaultCase ≤ 1)
  return .switch (← spanFrom start) discriminant cases

def catchClause (rules : Rules) : Parser Node := do
  let start ← here
  expectWord "catch"
  let param ← do
    if ← eatMark .parenLeft then
      let targetStart ← here
      let target ← rules .pattern
      let target ← withAnnotation rules targetStart target
      expectMark .parenRight
      pure (some target)
    else pure none
  let body ← blockBody rules
  return .catches (← spanFrom start) param body

/-- The handler and the last part of a `try` statement, each of which may be missing. -/
def tryHandlers (rules : Rules) : Parser (List Node) := do
  let handler ← do
    if ← atWord "catch" then pure [← catchClause rules] else pure []
  let finalizer ← do
    if ← eatWord "finally" then pure [← block rules] else pure []
  return handler ++ finalizer

def tryStatement (rules : Rules) (start : Nat) : Parser Node := do
  expectWord "try"
  let body ← block rules
  let handlers ← tryHandlers rules
  return .nested (← spanFrom start) [] (body :: handlers)

/-- Handlers without a `try` statement, which count for nothing. -/
def strayHandlers (rules : Rules) (start : Nat) : Parser Node := do
  let _ ← recover (tryHandlers rules)
  inert start

def returnStatement (rules : Rules) (start : Nat) : Parser Node := do
  expectWord "return"
  let value ← do
    if ← atStatementEnd then pure none else pure (some (← bracketed (expression rules)))
  semicolon
  return .returns (← spanFrom start) value

def throwStatement (rules : Rules) (start : Nat) : Parser Node := do
  expectWord "throw"
  require !(← afterNewline)
  let value ← bracketed (expression rules)
  semicolon
  return .compound (← spanFrom start) [value]

/-- A statement that leaves a loop or a labelled statement. -/
def jumpStatement (start : Nat) : Parser Node := do
  advance
  unless ← atStatementEnd do
    let _ ← identifierName
  semicolon
  inert start

/-- A statement whose body sees the properties of a value as names. -/
def withStatement (rules : Rules) (start : Nat) : Parser Node := do
  expectWord "with"
  let object ← parenthesized rules
  let body ← rules .substatement
  return .nested (← spanFrom start) [object] [body]

def interfaceDeclaration (rules : Rules) (start : Nat) : Parser Node := do
  expectWord "interface"
  let _ ← bindingIdentifier
  let types ← typeParametersIfAny rules
  let extended ← heritageTypes rules "extends"
  let members ← typeMembers rules
  return .compound (← spanFrom start) (types ++ extended ++ members)

def typeAlias (rules : Rules) (start : Nat) : Parser Node := do
  expectWord "type"
  let _ ← bindingIdentifier
  let types ← typeParametersIfAny rules
  expectMark .assign
  let type ← rules .type
  semicolon
  return .compound (← spanFrom start) (types ++ [type])

/-- One member of an enumeration and its value. -/
def enumMember (rules : Rules) : Parser (List Node) := do
  let _ ← propertyKey rules
  if ← eatMark .assign then return [← bracketed (rules .assignment)] else return []

/-- An enumeration: the values of its members. -/
def enumDeclaration (rules : Rules) (start : Nat) : Parser Node := do
  let _ ← eatWord "const"
  expectWord "enum"
  let _ ← bindingIdentifier
  expectMark .braceLeft
  let values ← commaSeparated .braceRight (enumMember rules)
  expectMark .braceRight
  return .compound (← spanFrom start) values.flatten

/-- The items of a namespace, if it has a body. -/
def namespaceBody (rules : Rules) (start : Nat) : Parser Node := do
  let items ← do
    if ← eatMark .braceLeft then untilBrace (rules .moduleItem)
    else
      semicolon
      pure []
  return .compound (← spanFrom start) items

/-- A namespace, or the declaration of a module. -/
def namespaceDeclaration (rules : Rules) (start : Nat) : Parser Node := do
  advance
  match ← peek with
  | .string _ => advance
  | _ => entityName
  namespaceBody rules start

/-- Whether the token after the current word makes it the start of a declaration. -/
def nextOnLine (test : Token → Bool) : Parser Bool :=
  nextSatisfies fun lexeme => test lexeme.token && !lexeme.newlineBefore

/-- Whether a declaration of types starts at the current word. -/
def startsTypeDeclaration (name : String) : Parser Bool := do
  if name == "interface" || name == "type" then nextOnLine isNameToken
  else if name == "namespace" then nextOnLine isNameToken
  else if name == "module" then
    nextOnLine fun token =>
      match token with
      | .string _ => true
      | token => isNameToken token
  else if name == "abstract" then nextOnLine fun token => token == .word "class" false
  else if name == "enum" then return true
  else if name == "const" then
    nextSatisfies fun lexeme => lexeme.token == .word "enum" false
  else return false

/-- The declaration of types at the current word. -/
def typeDeclaration (rules : Rules) (start : Nat) (name : String) : Parser Node := do
  if name == "interface" then interfaceDeclaration rules start
  else if name == "type" then typeAlias rules start
  else if name == "abstract" then
    advance
    classDeclaration rules start
  else if name == "enum" || name == "const" then enumDeclaration rules start
  else namespaceDeclaration rules start

/-- What stands after the word `declare` at `start`. -/
def ambientDeclaration (rules : Rules) (start : Nat) : Parser Node := do
  match ← peek with
  | .word name false =>
      if name == "global" then
        advance
        namespaceBody rules start
      else if ← startsTypeDeclaration name then typeDeclaration rules start name
      else if name == "function" || name == "async" then functionDeclaration rules start
      else if name == "class" then classDeclaration rules start
      else if ← atVariables then variableStatement rules .ambient start
      else failure
  | _ => failure

/-- Whether a function declaration starts at the current token. -/
def atFunction : Parser Bool := do
  if ← atWord "function" then return true
  else if ← atWord "async" then nextOnLine fun token => token == .word "function" false
  else return false

/-- A statement that starts with a keyword, or an expression statement; `declares` tells whether
`let` and `const` declare variables here. -/
def wordStatement (rules : Rules) (declares : Bool) (start : Nat) (name : String) :
    Parser Node := do
  if (← isTyped) && (← startsTypeDeclaration name) then typeDeclaration rules start name
  else if (← isTyped) && name == "declare" && (← nextOnLine fun token =>
      match token with | .word _ _ => true | _ => false) then
    advance
    ambientDeclaration rules start
  else if (declares || name == "var") && (← atVariables) then
    variableStatement rules .statement start
  else if declares && (← atResources) then resourceDeclaration rules start
  else if ← atFunction then functionDeclaration rules start
  else match name with
    | "class" => classDeclaration rules start
    | "if" => ifStatement rules start
    | "for" => forStatement rules start
    | "while" => whileStatement rules start
    | "do" => doStatement rules start
    | "switch" => switchStatement rules start
    | "try" => tryStatement rules start
    | "catch" => strayHandlers rules start
    | "finally" => strayHandlers rules start
    | "import" => importStatement rules
    | "return" => returnStatement rules start
    | "throw" => throwStatement rules start
    | "break" => jumpStatement start
    | "continue" => jumpStatement start
    | "with" => withStatement rules start
    | "debugger" =>
        advance
        semicolon
        inert start
    | _ => expressionStatement rules

/-- A statement; `declares` tells whether `let` and `const` declare variables here. -/
def statement (rules : Rules) (declares : Bool) : Parser Node := do
  let start ← here
  match ← peek with
  | .mark .braceLeft => block rules
  | .mark .semicolon =>
      advance
      inert start
  | .word name false => wordStatement rules declares start name
  | _ => expressionStatement rules

end StoreLint.Grammar
