import StoreLint.Grammar.Statement

/-!
# Modules

Imports and exports, and the rules of the whole grammar tied together.  A rule
calls the rules inside it with less fuel; since between two tokens only a few rules
call each other, a fuel of eight for each byte of the text is never used up.
-/

namespace StoreLint.Grammar

open StoreLint.Grammar.Parser

def stringText : Parser (Option String) := do
  match ← peek with
  | .string value =>
      advance
      return value
  | _ => failure

/-- A name in an import or export, which may be written as a string. -/
def moduleName : Parser Unit := do
  match ← peek with
  | .string _ => advance
  | _ =>
      let _ ← identifierName

/-- The attributes that may follow the source of a module in a file with types. -/
def importAttributes (rules : Rules) : Parser (Option Node) := do
  let isAttributeWord := (← atWord "with") || (← atWord "assert")
  if (← isTyped) && isAttributeWord && !(← afterNewline) then
    advance
    return some (← objectLiteral rules)
  else return none

/-- Takes the word `type` in front of a name that is imported or exported. -/
def skipTypeWord : Parser Unit := do
  if (← isTyped) && (← atWord "type") then
    let isModifier ← nextSatisfies fun lexeme =>
      match lexeme.token with
      | .word name _ => name != "as"
      | .string _ => true
      | _ => false
    if isModifier then advance

/-- One name in the braces of an import: the name it gets here. -/
def importSpecifier : Parser Identifier := do
  skipTypeWord
  match ← peek with
  | .string _ =>
      advance
      expectWord "as"
      bindingIdentifier
  | _ =>
      let isRenamed ← follows do
        let _ ← identifierName
        atWord "as"
      if isRenamed then
        let _ ← identifierName
        expectWord "as"
        bindingIdentifier
      else
        require (isNameToken (← peek))
        identifierName

def namespaceImport : Parser (List Identifier) := do
  expectMark .star
  expectWord "as"
  return [← bindingIdentifier]

def namedImports : Parser (List Identifier) := do
  expectMark .braceLeft
  let names ← commaSeparated .braceRight importSpecifier
  expectMark .braceRight
  return names

/-- The names of an import, without a default one; there may be none. -/
def importedNames : Parser (List Identifier) := do
  if ← atMark .star then namespaceImport
  else if ← atMark .braceLeft then namedImports
  else return []

/-- The source of an import whose names have been read. -/
def importSource (rules : Rules) (start : Nat) (locals : List Identifier) : Parser Node := do
  let source ← stringText
  let attributes ← importAttributes rules
  semicolon
  return .imports (← spanFrom start) locals (source.getD "") attributes

/-- What an import alias stands for. -/
def importAliasRest (rules : Rules) (start : Nat) : Parser Node := do
  let _ ← leftHandSide rules
  semicolon
  inert start

def importDeclaration (rules : Rules) (start : Nat) : Parser Node := do
  expectWord "import"
  match ← peek with
  | .string _ => importSource rules start []
  | _ =>
      if (← isTyped) && (← atWord "type") then
        let isModifier ← nextSatisfies fun lexeme =>
          match lexeme.token with
          | .word name _ => name != "from"
          | .mark mark => mark == .braceLeft || mark == .star
          | _ => false
        if isModifier then advance
      let locals ← do
        if (← atMark .star) || (← atMark .braceLeft) then importedNames
        else
          let first ← bindingIdentifier
          if ← eatMark .comma then pure (first :: (← importedNames)) else pure [first]
      if ← eatTypedMark .assign then importAliasRest rules start
      else
        expectWord "from"
        importSource rules start locals

/-- The declaration that a default export makes of a named function or class. -/
def defaultExported (value : Node) : Node :=
  match value with
  | .functionLike _ _ (some id) _ _ _ => .declaration id value
  | .classLike _ (some id) _ _ => .declaration id value
  | _ => value

def defaultExport (rules : Rules) : Parser Node := do
  let start ← here
  if ← atFunction then return defaultExported (← functionExpression rules)
  else if ← atWord "class" then return defaultExported (← classExpression rules)
  else if (← isTyped) && (← atWord "abstract") && (← startsTypeDeclaration "abstract") then
    advance
    expectWord "class"
    let name ← bindingIdentifierIfAny
    return defaultExported (← classRest rules start name)
  else if (← isTyped) && (← atWord "interface") && (← startsTypeDeclaration "interface") then
    interfaceDeclaration rules start
  else
    let value ← rules .assignment
    semicolon
    return value

def exportSpecifier : Parser Unit := do
  skipTypeWord
  moduleName
  if ← eatWord "as" then moduleName

/-- The attributes of the source of an export, from the word `from` on. -/
def exportSource (rules : Rules) : Parser (Option Node) := do
  expectWord "from"
  let _ ← stringText
  let attributes ← importAttributes rules
  semicolon
  return attributes

/-- Exports that only give names to what is declared elsewhere.  Without a source the semicolon
may always be missing. -/
def exportList (rules : Rules) (start : Nat) : Parser Node := do
  let attributes ← do
    if ← eatMark .star then
      if ← eatWord "as" then moduleName
      exportSource rules
    else
      expectMark .braceLeft
      let _ ← commaSeparated .braceRight exportSpecifier
      expectMark .braceRight
      if ← atWord "from" then exportSource rules
      else
        let _ ← eatMark .semicolon
        pure none
  return .compound (← spanFrom start) attributes.toList

/-- Whether a declaration that can be exported starts at the current token. -/
def atDeclaration : Parser Bool := do
  if (← atVariables) || (← atFunction) || (← atWord "class") then return true
  else match ← peek with
    | .word name false =>
        if ← isTyped then
          if name == "declare" then return true else startsTypeDeclaration name
        else return false
    | _ => return false

/-- An export declaration; an exported declaration is the declaration. -/
def exportDeclaration (rules : Rules) (start : Nat) : Parser Node := do
  expectWord "export"
  if ← eatWord "default" then defaultExport rules
  else if (← atMark .star) || (← atMark .braceLeft) then exportList rules start
  else if ← eatTypedMark .assign then
    let value ← expression rules
    semicolon
    return value
  else if (← isTyped) && (← atWord "as") then
    advance
    expectWord "namespace"
    let _ ← identifierName
    semicolon
    inert start
  else if (← isTyped) && (← atWord "import") then
    advance
    let _ ← bindingIdentifier
    expectMark .assign
    importAliasRest rules start
  else if ← atDeclaration then rules .statement
  else if (← isTyped) && (← atWord "type") then
    advance
    exportList rules start
  else failure

/-- A statement, import or export of a module. -/
def moduleItem (rules : Rules) : Parser Node := do
  let start ← here
  if ← atWord "import" then
    let isExpression ← nextSatisfies fun lexeme =>
      lexeme.token == .mark .parenLeft || lexeme.token == .mark .dot
    if isExpression then importStatement rules else importDeclaration rules start
  else if ← atWord "export" then exportDeclaration rules start
  else rules .statement

/-- The rules of the grammar, nested at most as deep as the fuel allows. -/
def rulesWithin : (fuel : Nat) → Rules
  | 0, _ => failure
  | fuel + 1, .assignment => assignment (rulesWithin fuel)
  | fuel + 1, .unary => unary (rulesWithin fuel)
  | fuel + 1, .leftHandSide => leftHandSide (rulesWithin fuel)
  | fuel + 1, .newTarget => newTarget (rulesWithin fuel)
  | fuel + 1, .statement => statement (rulesWithin fuel) true
  | fuel + 1, .substatement => statement (rulesWithin fuel) false
  | fuel + 1, .moduleItem => moduleItem (rulesWithin fuel)
  | fuel + 1, .pattern => pattern (rulesWithin fuel)
  | fuel + 1, .objectLiteral => objectLiteral (rulesWithin fuel)
  | fuel + 1, .markup => markup (rulesWithin fuel)
  | fuel + 1, .type => type (rulesWithin fuel)

/-- The items of a module and the comments in its text. -/
structure ModuleText where
  items : List Node
  comments : List Comment
deriving Inhabited

/-- Reads all items up to the end of the text. -/
def moduleItems (rules : Rules) : Parser ModuleText := do
  let items ← whileTrue (return (← peek) != .finish) (rules .moduleItem)
  return ⟨items, Comment.canonical (← get).comments⟩

/-- The text after the line that names an interpreter, if there is one, and its position. -/
def skipInterpreterLine (position : Nat) : List Char → Nat × List Char
  | '#' :: '!' :: rest =>
      let line := rest.takeWhile fun c => !isLineEnd c
      (position + 2 + byteLength line, rest.dropWhile fun c => !isLineEnd c)
  | chars => (position, chars)

/-- Reads a module whose text starts at `position`, or nothing if the text is no module. -/
def parseModule (dialect : Dialect) (position : Nat) (chars : List Char) :
    Option ModuleText := do
  let finish := position + byteLength chars
  let (start, text) := skipInterpreterLine position chars
  let lexeme ← nextLexeme start text
  let context : Context :=
    { dialect, finish, inAsync := false, inGenerator := false, allowIn := true,
      inLoopHead := false, inConditional := false, colonFollows := false, allowSuper := false }
  let state : State :=
    { current := lexeme, lastEnd := start, comments := lexeme.comments.reverse,
      arrowStart := none }
  let rules := rulesWithin (8 * (finish - position + 4))
  (moduleItems rules context state).1

end StoreLint.Grammar
