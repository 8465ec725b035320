/-!
# Ranges of code points

Properties of characters are kept as ascending lists of ranges of code points.
-/

namespace StoreLint

/-- Whether one of the ranges, ends included, holds the code point. -/
def inRanges (ranges : List (Nat × Nat)) (code : Nat) : Bool :=
  ranges.any fun range => range.1 ≤ code && code ≤ range.2

end StoreLint
