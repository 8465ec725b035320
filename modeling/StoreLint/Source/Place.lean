import StoreLint.Source.Text
import StoreLint.Text.DisplayWidth

/-!
# Places

A place is what a reader is shown of a position: its line and column, both counted
from one, and the text of the line.

A line ends with a line feed, a carriage return or both, but the text of a line that
is shown runs on to the next line feed.  A line that would start at the end of the
file does not exist, so an empty file has no line at all, and its only position is
in line zero.
-/

namespace StoreLint

/-- Where something stands, for a reader. -/
structure Place where
  line : Nat
  column : Nat
  sourceLine : String
deriving DecidableEq, Repr, Inhabited

namespace Place

/-- The offsets behind the line ends of a text that starts at `offset`. -/
def lineStartsFrom (offset : Nat) : List Char → List Nat
  | [] => []
  | '\n' :: chars => (offset + 1) :: lineStartsFrom (offset + 1) chars
  | '\r' :: '\n' :: chars => (offset + 2) :: lineStartsFrom (offset + 2) chars
  | '\r' :: chars => (offset + 1) :: lineStartsFrom (offset + 1) chars
  | c :: chars => lineStartsFrom (offset + c.utf8Size) chars

def lineStarts (text : String) : List Nat :=
  (0 :: lineStartsFrom 0 text.toList).filter fun start => start < text.utf8ByteSize

/-- The characters that start in the first `count` bytes. -/
def startingBefore : List Char → Nat → List Char
  | [], _ => []
  | _, 0 => []
  | c :: chars, count + 1 => c :: startingBefore chars (count + 1 - c.utf8Size)

/-- The columns that a character moves the place to the right.  A tab counts four, any other
control character none, a line end one, and every other character its sixteen-bit units, one more
if it is wide and one less if it has no width. -/
def columnsOf (c : Char) : Nat :=
  let units := if c.toNat < 0x10000 then 1 else 2
  if c == '\t' then 4
  else if c == '\n' || c == '\r' then 1
  else if DisplayWidth.isControl c then 0
  else units + DisplayWidth.ofChar c - 1

def ofOffset (text : String) (offset : Nat) : Place :=
  let reached := (lineStarts text).filter fun start => start ≤ offset
  let lineStart := reached.getLast?.getD 0
  let rest := (dropBytes text.toList lineStart).getD []
  let before := startingBefore rest (offset - lineStart)
  { line := reached.length
    column := before.foldl (fun column c => column + columnsOf c) 1
    sourceLine := String.ofList (rest.takeWhile fun c => c != '\n') }

end Place

end StoreLint
