import StoreLint.Json.Value

/-!
# Reading JSON

A document is read as far as it is well formed.  What has been read tells where the
text stops being a document, so that whoever uses it meets a wrong value and a
malformed text in the order in which they stand.

Two things are well formed but have no value: a number that is too large, and a
string with half of a surrogate pair.
-/

namespace StoreLint

/-- What the beginning of a text says. -/
inductive Reading where
  | null
  | boolean (value : Bool)
  | integer (value : Int)
  | float (value : Float)
  /-- A number that is too large. -/
  | hugeNumber
  /-- A string, without a value if it holds half of a surrogate pair. -/
  | string (value : Option String)
  /-- A list; if it is not closed, the text is malformed after the last element. -/
  | sequence (elements : List Reading) (closed : Bool)
  /-- An object; if it is not closed, the text is malformed after the last member. -/
  | map (members : List (Option String × Reading)) (closed : Bool)
  /-- The text is malformed here. -/
  | broken
deriving Inhabited

namespace Reading

/-- The text without the white space in front. -/
def skipBlank (chars : List Char) : List Char :=
  chars.dropWhile fun c => c == ' ' || c == '\n' || c == '\t' || c == '\r'

/-- What is left of a text after a word that it starts with. -/
def afterWord? : List Char → List Char → Option (List Char)
  | [], chars => some chars
  | _ :: _, [] => none
  | w :: word, c :: chars => if w == c then afterWord? word chars else none

/-! ## Numbers -/

/-- The largest number that is read as an integer. -/
def maxUnsigned : Nat := Nat.pow 2 64 - 1

/-- The digits of a number in progress: as many as fit, and the power of ten for the others. -/
structure Significand where
  value : Nat
  exponent : Int

def digitValue (c : Char) : Nat := c.toNat - '0'.toNat

/-- Takes in digits before the point; digits that do not fit only raise the exponent. -/
def Significand.takeWhole (read : Significand) : List Char → Significand
  | [] => read
  | c :: digits =>
      if read.exponent == 0 && read.value * 10 + digitValue c ≤ maxUnsigned then
        Significand.takeWhole ⟨read.value * 10 + digitValue c, 0⟩ digits
      else Significand.takeWhole ⟨read.value, read.exponent + 1⟩ digits

/-- Takes in digits after the point; from the first one that does not fit on they are dropped. -/
def Significand.takeFraction (read : Significand) : List Char → Significand
  | [] => read
  | c :: digits =>
      if read.value * 10 + digitValue c ≤ maxUnsigned then
        Significand.takeFraction ⟨read.value * 10 + digitValue c, read.exponent - 1⟩ digits
      else read

/-- Divides by `10 ^ 308` until the rest of the negative exponent is a single power of ten. -/
def scaleDown : (fuel : Nat) → Float → (exponent : Nat) → Float
  | 0, value, _ => value
  | fuel + 1, value, exponent =>
      if exponent ≤ 308 then value / Float.ofScientific 1 false exponent
      else if value == 0 then value
      else scaleDown fuel (value / 1e308) (exponent - 308)

/-- The number with the digits and the exponent, or nothing if it is too large. -/
def Significand.toFloat? (read : Significand) (isNegative : Bool) : Option Float :=
  let value := Float.ofNat read.value
  let scaled : Option Float :=
    if read.exponent < 0 then some (scaleDown 10 value read.exponent.natAbs)
    else if read.exponent ≤ 308 then
      let product := value * Float.ofScientific 1 false read.exponent.natAbs
      if product.isInf then none else some product
    else if read.value == 0 then some value
    else none
  scaled.map fun found => if isNegative then -found else found

def ofSignificand (read : Significand) (isNegative : Bool) : Reading :=
  match read.toFloat? isNegative with
  | some value => .float value
  | none => .hugeNumber

/-- The largest exponent that is read; a larger one makes the number zero or too large. -/
def maxExponent : Nat := Nat.pow 2 31 - 1

def ofExponent (read : Significand) (isNegative isNegativeExponent : Bool) (digits : List Char) :
    Reading :=
  let size := (digits.foldl (fun total c => total * 10 + digitValue c) 0)
  if maxExponent < size then
    if read.value != 0 && !isNegativeExponent then .hugeNumber
    else .float (if isNegative then -0.0 else 0.0)
  else
    let shift : Int := if isNegativeExponent then -(size : Int) else size
    ofSignificand ⟨read.value, read.exponent + shift⟩ isNegative

def readExponent (read : Significand) (isNegative : Bool) (chars : List Char) :
    Reading × List Char :=
  let (isNegativeExponent, text) :=
    match chars with
    | '+' :: rest => (false, rest)
    | '-' :: rest => (true, rest)
    | _ => (false, chars)
  let digits := text.takeWhile Char.isDigit
  if digits.isEmpty then (.broken, [])
  else
    (ofExponent read isNegative isNegativeExponent digits, text.dropWhile Char.isDigit)

/-- What follows the digits before the point of a number. -/
def readNumberRest (whole : List Char) (isNegative : Bool) (chars : List Char) :
    Reading × List Char :=
  let read := Significand.takeWhole ⟨0, 0⟩ whole
  match chars with
  | '.' :: rest =>
      let digits := rest.takeWhile Char.isDigit
      let after := rest.dropWhile Char.isDigit
      if digits.isEmpty then (.broken, [])
      else
        let read := read.takeFraction digits
        match after with
        | 'e' :: rest | 'E' :: rest => readExponent read isNegative rest
        | _ => (ofSignificand read isNegative, after)
  | 'e' :: rest | 'E' :: rest => readExponent read isNegative rest
  | _ =>
      if read.exponent != 0 then (ofSignificand read isNegative, chars)
      else if !isNegative then (.integer read.value, chars)
      else if 0 < read.value && read.value ≤ Nat.pow 2 63 then
        (.integer (-(read.value : Int)), chars)
      else (ofSignificand read true, chars)

def readNumber (chars : List Char) : Reading × List Char :=
  let (isNegative, text) :=
    match chars with
    | '-' :: rest => (true, rest)
    | _ => (false, chars)
  let digits := text.takeWhile Char.isDigit
  match digits with
  | [] => (.broken, [])
  | '0' :: _ :: _ => (.broken, [])
  | _ => readNumberRest digits isNegative (text.dropWhile Char.isDigit)

/-! ## Strings -/

/-- A part of a string: a character, or half of a surrogate pair. -/
inductive StringPart where
  | char (c : Char)
  | half (code : Nat)

def hexValue? (c : Char) : Option Nat :=
  if '0' ≤ c && c ≤ '9' then some (c.toNat - '0'.toNat)
  else if 'a' ≤ c && c ≤ 'f' then some (c.toNat - 'a'.toNat + 10)
  else if 'A' ≤ c && c ≤ 'F' then some (c.toNat - 'A'.toNat + 10)
  else none

/-- The part that four hexadecimal digits stand for. -/
def hexPart? (a b c d : Char) : Option StringPart := do
  let code :=
    ((← hexValue? a) * 16 + (← hexValue? b)) * 256 + (← hexValue? c) * 16 + (← hexValue? d)
  return if 0xd800 ≤ code && code ≤ 0xdfff then .half code else .char (Char.ofNat code)

/-- The character that a letter after a backslash stands for. -/
def escaped? (c : Char) : Option Char :=
  match c with
  | '"' => some '"'
  | '\\' => some '\\'
  | '/' => some '/'
  | 'b' => some '\x08'
  | 'f' => some '\x0c'
  | 'n' => some '\n'
  | 'r' => some '\r'
  | 't' => some '\t'
  | _ => none

/-- The parts of a string up to its closing quote, and the text after it. -/
def readParts (parts : List StringPart) : List Char → Option (List StringPart × List Char)
  | '"' :: rest => some (parts.reverse, rest)
  | '\\' :: 'u' :: a :: b :: c :: d :: rest =>
      match hexPart? a b c d with
      | some part => readParts (part :: parts) rest
      | none => none
  | '\\' :: c :: rest =>
      match escaped? c with
      | some character => readParts (.char character :: parts) rest
      | none => none
  | c :: rest => if c == '\\' || c.toNat < 0x20 then none else readParts (.char c :: parts) rest
  | [] => none

/-- The characters of a string, if every half finds its other half. -/
def joinParts : List StringPart → Option (List Char)
  | [] => some []
  | .char c :: parts => (joinParts parts).map (c :: ·)
  | .half high :: .half low :: parts =>
      if high < 0xdc00 && 0xdc00 ≤ low then
        let code := 0x10000 + (high - 0xd800) * 0x400 + (low - 0xdc00)
        (joinParts parts).map (Char.ofNat code :: ·)
      else none
  | .half _ :: _ => none

/-- The string after its opening quote: its value, and the text after it. -/
def readString (chars : List Char) : Option (Option String × List Char) :=
  match readParts [] chars with
  | none => none
  | some (parts, rest) => some ((joinParts parts).map String.ofList, rest)

/-! ## Values -/

def readWord (letters : List Char) (value : Reading) (chars : List Char) :
    Reading × Option (List Char) :=
  match afterWord? letters chars with
  | some after => (value, some after)
  | none => (.broken, none)

mutual

/-- A value, and the text after it if the value is well formed. -/
def readValue : (fuel : Nat) → List Char → Reading × Option (List Char)
  | 0, _ => (.broken, none)
  | fuel + 1, chars =>
      match skipBlank chars with
      | '"' :: rest =>
          match readString rest with
          | some (value, after) => (.string value, some after)
          | none => (.broken, none)
      | '[' :: rest =>
          let (elements, after) := readElements fuel true rest
          (.sequence elements after.isSome, after)
      | '\x7b' :: rest =>
          let (members, after) := readMembers fuel true rest
          (.map members after.isSome, after)
      | 'n' :: rest => readWord ['u', 'l', 'l'] .null rest
      | 't' :: rest => readWord ['r', 'u', 'e'] (.boolean true) rest
      | 'f' :: rest => readWord ['a', 'l', 's', 'e'] (.boolean false) rest
      | text =>
          match readNumber text with
          | (.broken, _) => (.broken, none)
          | (value, after) => (value, some after)

/-- The elements of a list, and the text after its bracket. -/
def readElements : (fuel : Nat) → (isFirst : Bool) → List Char → List Reading × Option (List Char)
  | 0, _, _ => ([], none)
  | fuel + 1, isFirst, chars =>
      match skipBlank chars with
      | ']' :: rest => if isFirst then ([], some rest) else ([], none)
      | text =>
          match readValue fuel text with
          | (value, none) => ([value], none)
          | (value, some after) =>
              match skipBlank after with
              | ',' :: rest =>
                  let (elements, final) := readElements fuel false rest
                  (value :: elements, final)
              | ']' :: rest => ([value], some rest)
              | _ => ([value], none)

/-- The members of an object, and the text after its brace. -/
def readMembers : (fuel : Nat) → (isFirst : Bool) → List Char →
    List (Option String × Reading) × Option (List Char)
  | 0, _, _ => ([], none)
  | fuel + 1, isFirst, chars =>
      match skipBlank chars with
      | '\x7d' :: rest => if isFirst then ([], some rest) else ([], none)
      | '"' :: text =>
          match readString text with
          | none => ([], none)
          | some (name, afterName) =>
              match skipBlank afterName with
              | ':' :: rest =>
                  match readValue fuel rest with
                  | (value, none) => ([(name, value)], none)
                  | (value, some after) =>
                      match skipBlank after with
                      | ',' :: rest =>
                          let (members, final) := readMembers fuel false rest
                          ((name, value) :: members, final)
                      | '\x7d' :: rest => ([(name, value)], some rest)
                      | _ => ([(name, value)], none)
              | _ => ([(name, .broken)], none)
      | _ => ([], none)

end

/-- A document: its value, and whether nothing but white space follows. -/
def document (text : String) : Reading × Bool :=
  let chars := text.toList
  let (value, after) := readValue (2 * chars.length + 2) chars
  match after with
  | some rest => (value, (skipBlank rest).isEmpty)
  | none => (value, false)

mutual

/-- Whether a value is well formed, whatever it is. -/
def isComplete : Reading → Bool
  | .sequence elements closed => closed && allComplete elements
  | .map members closed => closed && allMembersComplete members
  | .broken => false
  | _ => true

def allComplete : List Reading → Bool
  | [] => true
  | element :: elements => element.isComplete && allComplete elements

def allMembersComplete : List (Option String × Reading) → Bool
  | [] => true
  | (_, value) :: members => value.isComplete && allMembersComplete members

end

end Reading

end StoreLint
