/-!
# Shortest decimals

A binary floating point number is shown by the shortest decimal that reads back as
the number, and by the nearest of these if there are several.  The search runs over
decimal grids from coarse to fine in exact arithmetic.

The number is positional while its first digit stands between the fifth decimal place
and the sixteenth place before the point; otherwise it has a signed exponent of at
least two digits.
-/

namespace StoreLint.Decimal

/-- The positive number `mantissa * 2 ^ exponent`. -/
structure Binary where
  mantissa : Nat
  exponent : Int
deriving DecidableEq, Repr

/-- A decimal: its digits as a number, and the power of ten they are multiplied with. -/
structure Digits where
  value : Nat
  exponent : Int
deriving DecidableEq, Repr

/-- The mantissa and exponent in the bits of a double precision number without its sign. -/
def Binary.ofBits (bits : Nat) : Binary :=
  let fraction : Nat := bits % Nat.pow 2 52
  let biased : Nat := bits / Nat.pow 2 52 % Nat.pow 2 11
  if biased = 0 then ⟨fraction, -1074⟩ else ⟨Nat.pow 2 52 + fraction, Int.ofNat biased - 1075⟩

/-- A power with an integer exponent as a fraction. -/
def powerFraction (base : Nat) (exponent : Int) : Nat × Nat :=
  if 0 ≤ exponent then (base.pow exponent.toNat, 1) else (1, base.pow (-exponent).toNat)

/-- Four times the number and four times the ends of the interval of reals that round to it,
each multiplied by one common denominator, and that denominator: lower end, number, upper end,
denominator.  The interval below a power of two is half as wide. -/
def Binary.interval (number : Binary) : Nat × Nat × Nat × Nat :=
  let scale := powerFraction 2 number.exponent
  let below := if number.mantissa == Nat.pow 2 52 && number.exponent > -1074 then 1 else 2
  let centre := 4 * number.mantissa
  ((centre - below) * scale.1, centre * scale.1, (centre + 2) * scale.1, 4 * scale.2)

/-- The multiples of the given power of ten next to the number that read back as it, with twice
their distance to the number scaled by a common factor. -/
def Binary.candidates (number : Binary) (power : Int) : List (Nat × Digits) :=
  let (low, centre, high, denominator) := number.interval
  let unit := powerFraction 10 power
  -- A multiple `k` stands for `k * unit.1 / unit.2`; compare after multiplying everything out.
  let step := unit.1 * denominator
  let floor := centre * unit.2 / step
  let isEven := number.mantissa % 2 == 0
  let inside := fun k : Nat =>
    let point := k * step
    if isEven then low * unit.2 ≤ point && point ≤ high * unit.2
    else low * unit.2 < point && point < high * unit.2
  let distance := fun k : Nat =>
    let point := k * step
    let target := centre * unit.2
    if point ≤ target then target - point else point - target
  ([floor, floor + 1].filter fun k => 0 < k && inside k).map fun k => (distance k, ⟨k, power⟩)

/-- The nearer of the candidates; of two equally near ones the even one. -/
def nearest : List (Nat × Digits) → Option Digits
  | [] => none
  | [single] => some single.2
  | first :: second :: _ =>
      if first.1 < second.1 then some first.2
      else if second.1 < first.1 then some second.2
      else if first.2.value % 2 == 0 then some first.2
      else some second.2

/-- The first grid that holds a candidate, from the power of ten `power` down. -/
def Binary.searchFrom (number : Binary) : (grids : Nat) → (power : Int) → Option Digits
  | 0, _ => none
  | grids + 1, power =>
      match nearest (number.candidates power) with
      | some digits => some digits
      | none => number.searchFrom grids (power - 1)

/-- The shortest decimal that reads back as the number. -/
def Binary.shortest (number : Binary) : Digits :=
  -- No double precision number reaches `10 ^ 309`, and each has at most 17 digits.
  (number.searchFrom 700 309).getD ⟨0, 0⟩

/-- The digits without the zeros at their end. -/
def Digits.stripped (digits : Digits) : (fuel : Nat) → Digits
  | 0 => digits
  | fuel + 1 =>
      if digits.value != 0 && digits.value % 10 == 0 then
        Digits.stripped ⟨digits.value / 10, digits.exponent + 1⟩ fuel
      else digits

def Digits.chars (digits : Digits) : List Char := Nat.toDigits 10 digits.value

/-- The exponent that stands after the mark, with its sign and at least two digits. -/
def exponentText (exponent : Int) : List Char :=
  let size := exponent.natAbs
  let digits := Nat.toDigits 10 size
  (if exponent < 0 then '-' else '+') :: (if size < 10 then '0' :: digits else digits)

def Digits.text (digits : Digits) : List Char :=
  let chars := digits.chars
  let leading : Int := digits.exponent + chars.length - 1
  if -5 ≤ leading && leading < 0 then
    ['0', '.'] ++ List.replicate ((-leading).toNat - 1) '0' ++ chars
  else if 0 ≤ leading && leading ≤ 15 then
    let before := leading.toNat + 1
    let padded := chars ++ List.replicate (before - chars.length) '0'
    let after := padded.drop before
    padded.take before ++ ['.'] ++ (if after.isEmpty then ['0'] else after)
  else
    let tail := chars.drop 1
    chars.take 1 ++ (if tail.isEmpty then [] else '.' :: tail) ++ 'e' :: exponentText leading

/-- A finite double precision number as it is written. -/
def text (number : Float) : String :=
  let bits := number.toBits.toNat
  let sign := if bits / Nat.pow 2 63 == 1 then ['-'] else []
  let size := bits % Nat.pow 2 63
  if size == 0 then String.ofList (sign ++ ['0', '.', '0'])
  else String.ofList (sign ++ (((Binary.ofBits size).shortest).stripped 400).text)

end StoreLint.Decimal
