import StoreLint.Grammar.Token

/-!
# Text that only the grammar can delimit

Regular expressions, chunks of templates, markup text and markup names start with
a character that is also an ordinary mark, or with none at all, so they are read
only where the grammar expects them.
-/

namespace StoreLint.Grammar

/-- The text after a reading, and its position. -/
structure Reading where
  position : Nat
  rest : List Char

/-- Reads the body of a regular expression and its closing slash.  `inClass` tells whether the
reader is between square brackets, `escaped` whether a backslash came just before. -/
def readRegExpBody : (inClass escaped : Bool) → Nat → List Char → Option Reading
  | _, _, _, [] => none
  | inClass, escaped, position, c :: rest =>
      let next := position + c.utf8Size
      if isLineEnd c then none
      else if escaped then readRegExpBody inClass false next rest
      else if c == '\\' then readRegExpBody inClass true next rest
      else if c == '[' then readRegExpBody true false next rest
      else if c == ']' then readRegExpBody false false next rest
      else if c == '/' && !inClass then some ⟨next, rest⟩
      else readRegExpBody inClass false next rest

/-- Reads the characters that may stand in a name. -/
def readNameParts : Nat → List Char → Reading
  | position, [] => ⟨position, []⟩
  | position, c :: rest =>
      if Letter.isNamePart c then readNameParts (position + c.utf8Size) rest
      else ⟨position, c :: rest⟩

/-- Reads a regular expression whose opening slash is the first character. -/
def readRegExp (position : Nat) : List Char → Option Reading
  | _ :: rest =>
      (readRegExpBody false false (position + 1) rest).map fun body =>
        readNameParts body.position body.rest
  | [] => none

/-- Reads a chunk of a template up to its closing backquote or up to the brace that opens an
expression; tells whether the template ends here. -/
def readTemplateChunk : (escaped : Bool) → Nat → List Char → Option (Bool × Reading)
  | _, _, [] => none
  | true, position, c :: rest => readTemplateChunk false (position + c.utf8Size) rest
  | false, position, '$' :: '\x7b' :: rest => some (false, ⟨position + 2, rest⟩)
  | false, position, c :: rest =>
      if c == '`' then some (true, ⟨position + 1, rest⟩)
      else readTemplateChunk (c == '\\') (position + c.utf8Size) rest

/-- Reads markup text up to the character that opens a tag or an expression. -/
def readMarkupText : Nat → List Char → Option Reading
  | _, [] => none
  | position, c :: rest =>
      if c == '<' || c == '\x7b' then some ⟨position, c :: rest⟩
      else readMarkupText (position + c.utf8Size) rest

/-- Reads a markup string up to its closing quote. -/
def readMarkupString (quote : Char) : Nat → List Char → Option Reading
  | _, [] => none
  | position, c :: rest =>
      if c == quote then some ⟨position + 1, rest⟩
      else readMarkupString quote (position + c.utf8Size) rest

/-- Reads the characters that may follow the first one in a markup name. -/
def readMarkupName : List Char → Nat → List Char → List Char × Reading
  | read, position, [] => (read.reverse, ⟨position, []⟩)
  | read, position, c :: rest =>
      if Letter.isNamePart c || c == '-' then
        readMarkupName (c :: read) (position + c.utf8Size) rest
      else (read.reverse, ⟨position, c :: rest⟩)

end StoreLint.Grammar
