import StoreLint.Source.Comment
import StoreLint.Text.Letter

/-!
# Tokens

Tokens are read one at a time, because the grammar decides what a slash, a
closing brace or a less-than sign starts: the token reader always takes the plain
punctuation mark, and `Grammar.Scan` reads the longer form from the same place
where the grammar asks for it.  A greater-than sign is always a mark of its own, so
that nested type arguments close one by one.
-/

namespace StoreLint.Grammar

/-- Punctuation marks.  Assignment operators other than `=` and `/=` share one mark. -/
inductive Mark where
  | braceLeft | braceRight | parenLeft | parenRight | bracketLeft | bracketRight
  | semicolon | comma | dot | ellipsis | question | optionalDot | colon | arrow
  | atSign | backquote
  | less | lessEqual | shiftLeft | greater
  | equal | notEqual | strictEqual | strictNotEqual
  | plus | minus | star | slash | percent | power | increment | decrement
  | ampersand | bar | caret | bang | tilde | logicalAnd | logicalOr | coalesce
  | assign | assignSlash | assignOther
deriving DecidableEq, Repr, Inhabited

/-- The spellings of the marks; a spelling stands before its own beginnings. -/
def Mark.spellings : List (List Char × Mark) :=
  [("&&=", .assignOther), ("||=", .assignOther), ("??=", .assignOther), ("**=", .assignOther),
   ("<<=", .assignOther), ("===", .strictEqual), ("!==", .strictNotEqual), ("...", .ellipsis),
   ("=>", .arrow), ("==", .equal), ("!=", .notEqual), ("<=", .lessEqual), ("<<", .shiftLeft),
   ("++", .increment), ("--", .decrement), ("**", .power), ("&&", .logicalAnd),
   ("||", .logicalOr), ("??", .coalesce), ("?.", .optionalDot), ("+=", .assignOther),
   ("-=", .assignOther), ("*=", .assignOther), ("/=", .assignSlash), ("%=", .assignOther),
   ("&=", .assignOther), ("|=", .assignOther), ("^=", .assignOther),
   ("\x7b", .braceLeft), ("\x7d", .braceRight), ("(", .parenLeft), (")", .parenRight),
   ("[", .bracketLeft), ("]", .bracketRight), (";", .semicolon), (",", .comma), (".", .dot),
   ("?", .question), (":", .colon), ("@", .atSign), ("`", .backquote), ("<", .less),
   (">", .greater), ("+", .plus), ("-", .minus), ("*", .star), ("/", .slash), ("%", .percent),
   ("&", .ampersand), ("|", .bar), ("^", .caret), ("!", .bang), ("~", .tilde), ("=", .assign)]
    |>.map fun spelling => (spelling.1.toList, spelling.2)

/-- The tokens of the language. -/
inductive Token where
  /-- A name or a keyword; a keyword that is spelled with escapes is not a keyword. -/
  | word (name : String) (escaped : Bool)
  /-- A name after a number sign. -/
  | privateName
  | mark (mark : Mark)
  /-- A string, without a value when it holds an unpaired surrogate. -/
  | string (value : Option String)
  | number
  | bigint
  /-- The end of the text. -/
  | finish
deriving DecidableEq, Repr, Inhabited

def isLineEnd (c : Char) : Bool :=
  c == '\n' || c == '\r' || c == '\u2028' || c == '\u2029'

/-- Whether the character separates tokens without ending a line. -/
def isSpace (c : Char) : Bool :=
  let code := c.toNat
  code == 0x20 || code == 0x9 || code == 0xb || code == 0xc || code == 0xa0 || code == 0xfeff ||
    code == 0x1680 || (0x2000 ≤ code && code ≤ 0x200a) || code == 0x202f || code == 0x205f ||
    code == 0x3000

def byteLength (chars : List Char) : Nat :=
  chars.foldl (fun size c => size + c.utf8Size) 0

/-- What separates two tokens: comments, whether a line ends, and the text after it. -/
structure Gap where
  comments : List Comment
  newline : Bool
  position : Nat
  rest : List Char

/-- Where the reader of a gap stands: between comments, or inside one that started at
`start` and whose text so far is `text`, last character first. -/
inductive GapMode where
  | between
  | line (start : Nat) (text : List Char)
  | block (start : Nat) (text : List Char)

/-- Reads blanks and comments.  A block comment without an end takes the whole text and is
not kept. -/
def readGap : GapMode → List Comment → Bool → Nat → List Char → Gap
  | .between, comments, newline, position, '/' :: '/' :: rest =>
      readGap (.line position []) comments newline (position + 2) rest
  | .between, comments, newline, position, '/' :: '*' :: rest =>
      readGap (.block position []) comments newline (position + 2) rest
  | .between, comments, newline, position, c :: rest =>
      if isLineEnd c then readGap .between comments true (position + c.utf8Size) rest
      else if isSpace c then readGap .between comments newline (position + c.utf8Size) rest
      else ⟨comments.reverse, newline, position, c :: rest⟩
  | .between, comments, newline, position, [] => ⟨comments.reverse, newline, position, []⟩
  | .line start text, comments, newline, position, c :: rest =>
      if isLineEnd c then
        let comment := ⟨.line, String.ofList text.reverse, ⟨start, position⟩⟩
        readGap .between (comment :: comments) true (position + c.utf8Size) rest
      else readGap (.line start (c :: text)) comments newline (position + c.utf8Size) rest
  | .line start text, comments, newline, position, [] =>
      let comment := ⟨.line, String.ofList text.reverse, ⟨start, position⟩⟩
      ⟨(comment :: comments).reverse, newline, position, []⟩
  | .block start text, comments, newline, position, '*' :: '/' :: rest =>
      let comment := ⟨.block, String.ofList text.reverse, ⟨start, position + 2⟩⟩
      readGap .between (comment :: comments) newline (position + 2) rest
  | .block start text, comments, newline, position, c :: rest =>
      readGap (.block start (c :: text)) comments (newline || isLineEnd c)
        (position + c.utf8Size) rest
  | .block _ _, comments, newline, position, [] => ⟨comments.reverse, newline, position, []⟩

def hexDigit? (c : Char) : Option Nat :=
  if '0' ≤ c && c ≤ '9' then some (c.toNat - '0'.toNat)
  else if 'a' ≤ c && c ≤ 'f' then some (c.toNat - 'a'.toNat + 10)
  else if 'A' ≤ c && c ≤ 'F' then some (c.toNat - 'A'.toNat + 10)
  else none

/-- Where the reader of escaped text stands: in plain text, after a backslash, or inside the
digits of an escape whose value so far is `value`. -/
inductive EscapeMode where
  | plain
  | backslash
  | unicode
  | digits (left : Nat) (value : Nat)
  /-- After the opening brace. -/
  | brace
  | braced (value : Nat)
  | octal (left : Nat) (value : Nat)
  | carriageReturn

/-- A word that was read, and the text after it. -/
structure WordRead where
  chars : List Char
  escaped : Bool
  rest : List Char
  position : Nat

/-- Reads a word; `read` holds its characters so far, last one first. -/
def readWord : EscapeMode → List Char → Bool → Nat → List Char → Option WordRead
  | .plain, read, escaped, position, c :: rest =>
      if c == '\\' then readWord .backslash read true (position + 1) rest
      else if Letter.isNamePart c then
        readWord .plain (c :: read) escaped (position + c.utf8Size) rest
      else some ⟨read.reverse, escaped, c :: rest, position⟩
  | .plain, read, escaped, position, [] => some ⟨read.reverse, escaped, [], position⟩
  | .backslash, read, escaped, position, c :: rest =>
      if c == 'u' then readWord .unicode read escaped (position + 1) rest else none
  | .unicode, read, escaped, position, c :: rest =>
      if c == '\x7b' then readWord .brace read escaped (position + 1) rest
      else match hexDigit? c with
        | some digit => readWord (.digits 3 digit) read escaped (position + 1) rest
        | none => none
  | .digits left value, read, escaped, position, c :: rest =>
      match hexDigit? c with
      | none => none
      | some digit =>
          let value := value * 16 + digit
          if left ≤ 1 then readWord .plain (Char.ofNat value :: read) escaped (position + 1) rest
          else readWord (.digits (left - 1) value) read escaped (position + 1) rest
  | .brace, read, escaped, position, c :: rest =>
      match hexDigit? c with
      | some digit => readWord (.braced digit) read escaped (position + 1) rest
      | none => none
  | .braced value, read, escaped, position, c :: rest =>
      if c == '\x7d' then
        readWord .plain (Char.ofNat value :: read) escaped (position + 1) rest
      else match hexDigit? c with
        | some digit => readWord (.braced (value * 16 + digit)) read escaped (position + 1) rest
        | none => none
  | _, _, _, _, _ => none

/-- The text of UTF-16 units and whole characters, or nothing if a surrogate is unpaired. -/
def textOfCodes : List Nat → Option (List Char)
  | [] => some []
  | high :: low :: codes =>
      if 0xd800 ≤ high && high ≤ 0xdbff && 0xdc00 ≤ low && low ≤ 0xdfff then
        (textOfCodes codes).map
          (Char.ofNat (0x10000 + (high - 0xd800) * 0x400 + (low - 0xdc00)) :: ·)
      else if 0xd800 ≤ high && high ≤ 0xdfff then none
      else (textOfCodes (low :: codes)).map (Char.ofNat high :: ·)
  | [code] =>
      if 0xd800 ≤ code && code ≤ 0xdfff then none else some [Char.ofNat code]

/-- A string that was read: its value, and the text after it. -/
structure StringRead where
  value : Option String
  rest : List Char
  position : Nat

/-- The string made of codes that are listed last first. -/
def stringOfCodes (codes : List Nat) : Option String :=
  (textOfCodes codes.reverse).map String.ofList

/-- The character that a backslash and a letter stand for. -/
def simpleEscape (c : Char) : Nat :=
  if c == 'n' then 0xa else if c == 't' then 0x9 else if c == 'r' then 0xd
  else if c == 'b' then 0x8 else if c == 'v' then 0xb else if c == 'f' then 0xc
  else c.toNat

def octalDigit? (c : Char) : Option Nat :=
  if '0' ≤ c && c ≤ '7' then some (c.toNat - '0'.toNat) else none

/-- Reads a string up to `quote`; a string without an end stops at the end of its line.
`codes` holds the codes so far, last one first. -/
def readString (quote : Char) : EscapeMode → List Nat → Nat → List Char → Option StringRead
  | .plain, codes, position, [] => some ⟨stringOfCodes codes, [], position⟩
  | .plain, codes, position, c :: rest =>
      if c == quote then some ⟨stringOfCodes codes, rest, position + 1⟩
      else if c == '\\' then readString quote .backslash codes (position + 1) rest
      else if c == '\n' || c == '\r' then some ⟨stringOfCodes codes, c :: rest, position⟩
      else readString quote .plain (c.toNat :: codes) (position + c.utf8Size) rest
  | .backslash, codes, position, c :: rest =>
      let next := position + c.utf8Size
      if c == 'u' then readString quote .unicode codes next rest
      else if c == 'x' then readString quote (.digits 2 0) codes next rest
      else if c == '\r' then readString quote .carriageReturn codes next rest
      else if isLineEnd c then readString quote .plain codes next rest
      else match octalDigit? c with
        | some digit =>
            readString quote (.octal (if digit ≤ 3 then 2 else 1) digit) codes next rest
        | none => readString quote .plain (simpleEscape c :: codes) next rest
  | .carriageReturn, codes, position, c :: rest =>
      if c == '\n' then readString quote .plain codes (position + 1) rest
      else if c == quote then some ⟨stringOfCodes codes, rest, position + 1⟩
      else if c == '\\' then readString quote .backslash codes (position + 1) rest
      else if c == '\r' then some ⟨stringOfCodes codes, c :: rest, position⟩
      else readString quote .plain (c.toNat :: codes) (position + c.utf8Size) rest
  | .octal left value, codes, position, c :: rest =>
      match octalDigit? c with
      | some digit =>
          if left ≤ 1 then
            readString quote .plain ((value * 8 + digit) :: codes) (position + 1) rest
          else readString quote (.octal (left - 1) (value * 8 + digit)) codes (position + 1) rest
      | none =>
          if c == quote then some ⟨stringOfCodes (value :: codes), rest, position + 1⟩
          else if c == '\\' then readString quote .backslash (value :: codes) (position + 1) rest
          else if c == '\n' || c == '\r' then
            some ⟨stringOfCodes (value :: codes), c :: rest, position⟩
          else readString quote .plain (c.toNat :: value :: codes) (position + c.utf8Size) rest
  | .unicode, codes, position, c :: rest =>
      if c == '\x7b' then readString quote .brace codes (position + 1) rest
      else match hexDigit? c with
        | some digit => readString quote (.digits 3 digit) codes (position + 1) rest
        | none => none
  | .digits left value, codes, position, c :: rest =>
      match hexDigit? c with
      | none => none
      | some digit =>
          let value := value * 16 + digit
          if left ≤ 1 then readString quote .plain (value :: codes) (position + 1) rest
          else readString quote (.digits (left - 1) value) codes (position + 1) rest
  | .brace, codes, position, c :: rest =>
      match hexDigit? c with
      | some digit => readString quote (.braced digit) codes (position + 1) rest
      | none => none
  | .braced value, codes, position, c :: rest =>
      if c == '\x7d' then
        if value ≤ 0x10ffff then readString quote .plain (value :: codes) (position + 1) rest
        else none
      else match hexDigit? c with
        | some digit => readString quote (.braced (value * 16 + digit)) codes (position + 1) rest
        | none => none
  | _, _, _, [] => none

/-- The characters after those that satisfy the test. -/
def skipWhile (test : Char → Bool) (chars : List Char) : List Char := chars.dropWhile test

/-- Whether the character may stand among the digits of a number. -/
def isDigitPart (c : Char) : Bool := c.isDigit || c == '_'

/-- The text after the fraction and the exponent of a decimal number; an exponent without digits
is left. -/
def skipFraction (chars : List Char) : List Char :=
  let afterFraction :=
    match chars with
    | '.' :: rest => skipWhile isDigitPart rest
    | rest => rest
  let startsWithDigit := fun rest : List Char => rest.head?.any Char.isDigit
  match afterFraction with
  | e :: sign :: rest =>
      if e == 'e' || e == 'E' then
        if (sign == '+' || sign == '-') && startsWithDigit rest then skipWhile isDigitPart rest
        else if sign.isDigit then skipWhile isDigitPart rest
        else afterFraction
      else afterFraction
  | rest => rest

/-- The base of a number by the letter after its leading zero. -/
def radix? (letter : Char) : Option Nat :=
  if letter == 'x' || letter == 'X' then some 16
  else if letter == 'o' || letter == 'O' then some 8
  else if letter == 'b' || letter == 'B' then some 2
  else none

/-- Whether the character may stand among the digits of a number with the base. -/
def isRadixPart (base : Nat) (c : Char) : Bool :=
  c == '_' || (hexDigit? c).any fun digit => digit < base

/-- The text after the digits of a number with a base; there is at least one. -/
def skipRadixDigits (base : Nat) (chars : List Char) : Option (List Char) :=
  if chars.head?.any (isRadixPart base) then some (skipWhile (isRadixPart base) chars) else none

/-- Whether the character may stand in a number. -/
def isNumberPart (c : Char) : Bool :=
  Letter.isAsciiWord c || c == '.' || c == '+' || c == '-'

/-- A number whose digits end before `body`: a big integer, or what `finish` makes of a number. -/
def numberToken (finish : List Char → List Char) : (body : List Char) → Token × List Char
  | 'n' :: rest => (.bigint, rest)
  | rest => (.number, finish rest)

/-- The token of a number among characters that may stand in one, and the characters after
it. -/
def splitNumber (chars : List Char) : Option (Token × List Char) :=
  match chars with
  | '0' :: letter :: rest =>
      match radix? letter with
      | some base => (skipRadixDigits base rest).map (numberToken id)
      | none => some (numberToken skipFraction (skipWhile isDigitPart (letter :: rest)))
  | '.' :: _ => some (.number, skipFraction chars)
  | _ => some (numberToken skipFraction (skipWhile isDigitPart chars))

/-- Reads a number; gives its token and its length.  No name may follow it directly. -/
def readNumber (chars : List Char) : Option (Token × Nat) := do
  let parts := chars.takeWhile isNumberPart
  let (token, rest) ← splitNumber parts
  let length := parts.length - rest.length
  match chars.drop length with
  | c :: _ => if Letter.isNameStart c || c == '\\' then none else some (token, length)
  | [] => some (token, length)

/-- Reads a punctuation mark; gives it and its length.  A question mark and a dot before a
digit are two marks. -/
def readMark (chars : List Char) : Option (Mark × Nat) :=
  match chars with
  | '?' :: '.' :: digit :: _ =>
      if digit.isDigit then some (.question, 1) else some (.optionalDot, 2)
  | _ =>
      (Mark.spellings.find? fun spelling => spelling.1.isPrefixOf chars).map fun spelling =>
        (spelling.2, spelling.1.length)

/-- A token with its place: the text that starts with it, the text after it, the comments in
front of it and whether a line ends there. -/
structure Lexeme where
  token : Token
  span : Span
  text : List Char
  rest : List Char
  comments : List Comment
  newlineBefore : Bool
deriving Inhabited

/-- Reads the token at the start of the text, which stands at `position`; gives the token,
the position of its end and the text after it. -/
def readToken (position : Nat) (chars : List Char) : Option (Token × Nat × List Char) :=
  match chars with
  | [] => some (.finish, position, [])
  | c :: rest =>
      if Letter.isNameStart c || c == '\\' then
        (readWord .plain [] false position chars).map fun word =>
          (.word (String.ofList word.chars) word.escaped, word.position, word.rest)
      else if c == '"' || c == '\'' then
        (readString c .plain [] (position + 1) rest).map fun read =>
          (.string read.value, read.position, read.rest)
      else if c == '#' then
        match rest with
        | first :: _ =>
            if Letter.isNameStart first || first == '\\' then
              (readWord .plain [] false (position + 1) rest).map fun word =>
                (.privateName, word.position, word.rest)
            else none
        | [] => none
      else
        let numberFollows :=
          c.isDigit || (c == '.' && (match rest with | d :: _ => d.isDigit | [] => false))
        if numberFollows then
          (readNumber chars).map fun (token, length) =>
            (token, position + length, chars.drop length)
        else
          (readMark chars).map fun (mark, length) =>
            (.mark mark, position + length, chars.drop length)

/-- Reads the token after the gap at `position`. -/
def nextLexeme (position : Nat) (chars : List Char) : Option Lexeme :=
  let gap := readGap .between [] false position chars
  (readToken gap.position gap.rest).map fun (token, finish, rest) =>
    { token, span := ⟨gap.position, finish⟩, text := gap.rest, rest,
      comments := gap.comments, newlineBefore := gap.newline }

end StoreLint.Grammar
