import StoreLint.Text.DisplayWidth
import StoreLint.Text.Emoji

/-!
# Display width of a text

The columns of a text are those of its characters, except where characters join: a
carriage return and the line feed after it, an emoji and its selector, modifier or
joined emoji, lam and alef in Arabic, and a subscript letter in Khmer.  The text is
read from its end, so that each character knows what follows it.  A control
character takes one column here.
-/

namespace StoreLint.LineWidth

/-- What follows a character, as far as its width depends on it. -/
inductive Following where
  | plain
  | lineFeed
  /-- An emoji. -/
  | picture
  /-- A joiner and an emoji. -/
  | joined
  /-- A selector for the emoji form. -/
  | emojiSelector
  /-- A selector for the emoji form, a joiner and an emoji. -/
  | joinedSelector
  /-- A selector for the text form. -/
  | textSelector
  /-- A modifier of skin tone. -/
  | modifier
  /-- An alef. -/
  | alef
  /-- A Khmer letter that has a subscript form. -/
  | khmerLetter
deriving DecidableEq, Repr

def alefRanges : List (Nat × Nat) :=
  [(0x622, 0x623), (0x625, 0x625), (0x627, 0x627), (0x671, 0x673), (0x675, 0x675),
   (0x773, 0x774), (0x870, 0x882)]

def lamRanges : List (Nat × Nat) :=
  [(0x644, 0x644), (0x6b5, 0x6b8), (0x76a, 0x76a), (0x8a6, 0x8a6), (0x8c7, 0x8c7)]

/-- The Khmer letters that have a subscript form. -/
def khmerRanges : List (Nat × Nat) :=
  [(0x1780, 0x1782), (0x1784, 0x1787), (0x1789, 0x178c), (0x178e, 0x1793), (0x1795, 0x1798),
   (0x179b, 0x179d), (0x17a0, 0x17a0), (0x17a2, 0x17a2), (0x17a7, 0x17a7), (0x17ab, 0x17ac),
   (0x17af, 0x17af)]

/-- The width of a character that joins with nothing, and what it is to the one before it. -/
def alone (c : Char) : Int × Following :=
  let following : Following :=
    if Emoji.isModifier c then .modifier
    else if Emoji.isPicture c then .picture
    else if inRanges alefRanges c.toNat then .alef
    else if inRanges khmerRanges c.toNat then .khmerLetter
    else .plain
  (DisplayWidth.ofChar c, following)

/-- The columns that a character adds to the text that follows it, and what it is to the
character before it.  A character past Latin-1 controls is expected. -/
def joining (c : Char) (next : Following) : Int × Following :=
  let code := c.toNat
  if code == 0xfe0f then
    (0, if next == .joined then .joinedSelector else .emojiSelector)
  else if code == 0xfe0e then (0, .textSelector)
  else
    match next with
    | .textSelector => if Emoji.isPlainable c then (1, .plain) else alone c
    | .picture => if code == 0x200d then (0, .joined) else alone c
    | .modifier => if Emoji.isModifiable c then (0, .picture) else alone c
    | .joined =>
        if Emoji.isModifier c then (0, .modifier)
        else if Emoji.isPicture c then (0, .picture)
        else alone c
    | .alef =>
        if inRanges lamRanges code then (0, .plain)
        else if DisplayWidth.ofChar c == 0 && code != 0x200c && code != 0x200d then (0, .alef)
        else alone c
    | .khmerLetter => if code == 0x17d2 then (-1, .plain) else alone c
    | _ => alone c

/-- The columns that any character adds, and what it is to the character before it. -/
def step (c : Char) (next : Following) : Int × Following :=
  if next == .emojiSelector && Emoji.isSelectable c then (2, .picture)
  else if next == .joinedSelector && Emoji.isSelectable c then (0, .picture)
  else if c.toNat ≤ 0xa0 then
    if c == '\n' then (1, .lineFeed)
    else if c == '\r' && next == .lineFeed then (0, .plain)
    else (1, .plain)
  else joining c (if next == .joinedSelector then .joined else next)

/-- The columns of a text, and what its first character is to one before it. -/
def scan : List Char → Int × Following
  | [] => (0, .plain)
  | c :: chars =>
      let after := scan chars
      let here := step c after.2
      (here.1 + after.1, here.2)

/-- The columns that a text takes on a terminal. -/
def ofText (chars : List Char) : Nat := (scan chars).1.toNat

end StoreLint.LineWidth
