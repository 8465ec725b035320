/-!
# White space

The Unicode property `White_Space`, and the words and the trimmed form of a text that
it defines.  The byte order mark is not white space.
-/

namespace StoreLint.Blank

/-- Whether the character has the property `White_Space`. -/
def isBlank (c : Char) : Bool :=
  let code := c.toNat
  (9 ≤ code && code ≤ 13) || code == 0x20 || code == 0x85 || code == 0xa0 || code == 0x1680 ||
    (0x2000 ≤ code && code ≤ 0x200a) || code == 0x2028 || code == 0x2029 || code == 0x202f ||
    code == 0x205f || code == 0x3000

/-- The text without the white space at both ends. -/
def trim (chars : List Char) : List Char :=
  ((chars.dropWhile isBlank).reverse.dropWhile isBlank).reverse

/-- The words of a text, of which `word` has been read already, last character first. -/
def wordsFrom (word : List Char) : List Char → List (List Char)
  | [] => if word.isEmpty then [] else [word.reverse]
  | c :: chars =>
      if isBlank c then
        if word.isEmpty then wordsFrom [] chars else word.reverse :: wordsFrom [] chars
      else wordsFrom (c :: word) chars

def words (chars : List Char) : List (List Char) := wordsFrom [] chars

end StoreLint.Blank
