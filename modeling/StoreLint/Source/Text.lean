import StoreLint.Source.Span

/-!
# Source text

The text of a file together with the position of its first byte.  A stretch of it is
cut out by positions, which have to lie in the text and between two characters.
-/

namespace StoreLint

/-- The characters after the given number of bytes, unless that number is past the end or inside
a character. -/
def dropBytes : List Char → Nat → Option (List Char)
  | chars, 0 => some chars
  | [], _ + 1 => none
  | c :: chars, count + 1 =>
      if c.utf8Size ≤ count + 1 then dropBytes chars (count + 1 - c.utf8Size) else none

/-- The characters that fill the given number of bytes, unless that number is past the end or
inside a character. -/
def takeBytes : List Char → Nat → Option (List Char)
  | _, 0 => some []
  | [], _ + 1 => none
  | c :: chars, count + 1 =>
      if c.utf8Size ≤ count + 1 then
        (takeBytes chars (count + 1 - c.utf8Size)).map fun taken => c :: taken
      else none

/-- The text of a file and the position at which it starts. -/
structure SourceText where
  start : Nat
  text : String
deriving DecidableEq, Repr, Inhabited

def SourceText.slice (source : SourceText) (lo hi : Nat) : Option (List Char) :=
  if lo < source.start || hi < lo then none
  else do
    let rest ← dropBytes source.text.toList (lo - source.start)
    takeBytes rest (hi - lo)

end StoreLint
