import StoreLint.Grammar.Scan
import StoreLint.Tree.Node

/-!
# Parsers

A parser reads tokens from a state that holds the current one, and either gives a
value or fails; in both cases it leaves the state in which it stopped.  `attempt`
goes back to the state before a failure, and `recover` goes on from the token that
could not be read.

The grammar is lenient: it accepts text that breaks a rule as long as it is clear
how to go on (a name declared twice, a `return` outside of a function, a statement
in place of the semicolon after a declaration).  So there is one kind of failure:
the text is not a module.
-/

namespace StoreLint.Grammar

/-- The variants of the language that a file may be written in. -/
structure Dialect where
  /-- Type annotations are allowed. -/
  typed : Bool
  /-- Markup elements are expressions. -/
  markup : Bool
deriving DecidableEq, Repr, Inhabited

/-- What a parser knows about the place it reads. -/
structure Context where
  dialect : Dialect
  /-- The position of the end of the text. -/
  finish : Nat
  inAsync : Bool
  inGenerator : Bool
  /-- Whether `in` is an operator here. -/
  allowIn : Bool
  /-- In the first part of the head of a loop. -/
  inLoopHead : Bool
  /-- Inside either branch of a conditional expression. -/
  inConditional : Bool
  /-- The colon of a conditional expression must follow. -/
  colonFollows : Bool
  /-- Whether properties of `super` can be accessed here. -/
  allowSuper : Bool

/-- The current token and what has been read before it. -/
structure State where
  current : Lexeme
  /-- The end of the last token that was taken. -/
  lastEnd : Nat
  /-- The comments in front of the tokens so far, last one first. -/
  comments : List Comment
  /-- Where an arrow function may start in the expression that is being read. -/
  arrowStart : Option Nat

/-- Reads a value from the current token on, or fails. -/
abbrev Parser := ReaderT Context (OptionT (StateM State))

namespace Parser

/-- The current token. -/
def peek : Parser Token := return (← get).current.token

/-- The position at which the current token starts. -/
def here : Parser Nat := return (← get).current.span.lo

/-- The span from `start` to the end of the last token that was taken. -/
def spanFrom (start : Nat) : Parser Span := return ⟨start, (← get).lastEnd⟩

/-- Whether a line ends in front of the current token. -/
def afterNewline : Parser Bool := return (← get).current.newlineBefore

/-- Makes the token that is read at `position` the current one. -/
def moveTo (position : Nat) (rest : List Char) : Parser Unit := do
  match nextLexeme position rest with
  | none => failure
  | some lexeme =>
      modify fun state =>
        { state with
          current := lexeme
          lastEnd := position
          comments := lexeme.comments.reverse ++ state.comments }

/-- Takes the current token. -/
def advance : Parser Unit := do
  let lexeme := (← get).current
  moveTo lexeme.span.hi lexeme.rest

/-- Lets the current token end later, after text that the grammar has read itself. -/
def extendTo (reading : Reading) : Parser Unit :=
  modify fun state =>
    { state with
      current :=
        { state.current with
          span := ⟨state.current.span.lo, reading.position⟩, rest := reading.rest } }

/-- Fails at the end of the text, because nothing closes what is being read. -/
def unclosed {α : Type} : Parser α := do
  let finish := (← read).finish
  modify fun state =>
    { state with
      current := {
        token := .finish, span := ⟨finish, finish⟩, text := [], rest := [], comments := [],
        newlineBefore := false } }
  failure

/-- Gives nothing, and takes nothing, where the parser fails. -/
def attempt {α : Type} (parser : Parser α) : Parser (Option α) := fun context state =>
  match parser context state with
  | (some value, next) => (some (some value), next)
  | (none, _) => (some none, state)

/-- Gives nothing where the parser fails, and goes on from where it failed. -/
def recover {α : Type} (parser : Parser α) : Parser (Option α) := fun context state =>
  match parser context state with
  | (some value, next) => (some (some value), next)
  | (none, next) => (some none, next)

/-- Whether the test holds of what follows; takes nothing. -/
def follows (test : Parser Bool) : Parser Bool := fun context state =>
  match test context state with
  | (some answer, _) => (some answer, state)
  | (none, _) => (some false, state)

def atMark (mark : Mark) : Parser Bool := return (← peek) == .mark mark

def atWord (name : String) : Parser Bool := return (← peek) == .word name false

/-- Takes the mark if it is the current token, and tells whether it was. -/
def eatMark (mark : Mark) : Parser Bool := do
  if ← atMark mark then
    advance
    return true
  else return false

/-- Takes either mark if it is the current token, and tells whether one was. -/
def eatEither (first second : Mark) : Parser Bool := do
  if ← eatMark first then return true else eatMark second

/-- Takes the keyword if it is the current token, and tells whether it was. -/
def eatWord (name : String) : Parser Bool := do
  if ← atWord name then
    advance
    return true
  else return false

/-- Takes the mark, which must be the current token. -/
def expectMark (mark : Mark) : Parser Unit := do
  unless ← eatMark mark do failure

/-- Takes the keyword, which must be the current token. -/
def expectWord (name : String) : Parser Unit := do
  unless ← eatWord name do failure

/-- Fails unless the condition holds. -/
def require (condition : Bool) : Parser Unit :=
  if condition then pure () else failure

/-- Whether a statement ends before the current token: at a semicolon, before a closing brace,
at the end of the text and after the end of a line. -/
def atStatementEnd : Parser Bool := do
  let token ← peek
  return (← afterNewline) || token == .mark .semicolon || token == .mark .braceRight ||
    token == .finish

/-- Takes the semicolon at the end of a statement, which may be left out at its end, and tells
whether the statement ends here. -/
def eatSemicolon : Parser Bool := do
  if ← eatMark .semicolon then return true else atStatementEnd

def semicolon : Parser Unit := do
  unless ← eatSemicolon do failure

/-- An upper bound on the number of tokens that are left. -/
def tokenBound : Parser Nat := return (← read).finish - (← here) + 2

/-- Repeats a step, at most `bound` times, until it gives a result. -/
def repeatBounded {σ β : Type} (step : σ → Parser (σ ⊕ β)) : Nat → σ → Parser β
  | 0, _ => failure
  | bound + 1, state => do
      match ← step state with
      | .inl next => repeatBounded step bound next
      | .inr result => return result

/-- Repeats a step, which takes at least one token, until it gives a result. -/
def iterate {σ β : Type} (start : σ) (step : σ → Parser (σ ⊕ β)) : Parser β := do
  repeatBounded step (← tokenBound) start

/-- Collects what `item` reads while `continues` holds. -/
def whileTrue {α : Type} (continues : Parser Bool) (item : Parser α) : Parser (List α) :=
  iterate [] fun read => do
    if ← continues then return .inl ((← item) :: read)
    else return .inr read.reverse

/-- Reads items up to the closing mark and takes it; nothing stands between two items. -/
def untilMark {α : Type} (close : Mark) (item : Parser α) : Parser (List α) := do
  let items ← whileTrue (return !(← atMark close)) item
  expectMark close
  return items

/-- Reads items up to the closing brace and takes it; the end of the text closes it, too. -/
def untilBrace {α : Type} (item : Parser α) : Parser (List α) := do
  let items ←
    whileTrue (return !((← atMark .braceRight) || (← peek) == .finish)) item
  let _ ← eatMark .braceRight
  return items

/-- Reads items with commas between them up to the closing mark, which is left; a comma may
stand after the last one. -/
def commaSeparated {α : Type} (close : Mark) (item : Parser α) : Parser (List α) :=
  iterate [] fun read => do
    if ← atMark close then return .inr read.reverse
    else
      let value ← item
      if ← eatMark .comma then return .inl (value :: read)
      else if ← atMark close then return .inr (value :: read).reverse
      else failure

/-- Reads items with commas between them, at least one. -/
def commaSeparatedOne {α : Type} (item : Parser α) : Parser (List α) :=
  iterate [] fun read => do
    let value ← item
    if ← eatMark .comma then return .inl (value :: read)
    else return .inr (value :: read).reverse

/-- Whether the file may hold type annotations. -/
def isTyped : Parser Bool := return (← read).dialect.typed

def hasMarkup : Parser Bool := return (← read).dialect.markup

/-- Takes the mark if the file may hold types and it is the current token, and tells whether it
was. -/
def eatTypedMark (mark : Mark) : Parser Bool := do
  if ← isTyped then eatMark mark else return false

/-- Whether the test holds of the token after the current one. -/
def nextSatisfies (test : Lexeme → Bool) : Parser Bool :=
  follows do
    advance
    return test (← get).current

/-- Whether the mark follows the current token. -/
def nextIsMark (mark : Mark) : Parser Bool :=
  nextSatisfies fun lexeme => lexeme.token == .mark mark

/-- Reads as inside brackets: `in` is an operator, and no conditional expression is open. -/
def bracketed {α : Type} (parser : Parser α) : Parser α :=
  withReader
    (fun context =>
      { context with
        allowIn := true, inLoopHead := false, inConditional := false, colonFollows := false })
    parser

end Parser

/-- The parts of the grammar that contain each other. -/
inductive Production where
  | assignment
  | unary
  | leftHandSide
  | newTarget
  | statement
  /-- A statement in a place where `let` and `const` declare nothing. -/
  | substatement
  | moduleItem
  | pattern
  | objectLiteral
  | markup
  | type
deriving DecidableEq, Repr

/-- A parser for each part of the grammar; rules take one for what stands inside them. -/
abbrev Rules := Production → Parser Node

end StoreLint.Grammar
