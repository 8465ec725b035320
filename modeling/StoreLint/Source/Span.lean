/-!
# Spans

Positions count UTF-8 bytes.  A file occupies the positions from its start up to
its end, and the first file starts at position one, so the empty span at
position zero lies in no file: it is the span of a node that was never written.
-/

namespace StoreLint

/-- The bytes from `lo` up to, and not including, `hi`. -/
structure Span where
  lo : Nat
  hi : Nat
deriving DecidableEq, Repr, Inhabited

namespace Span

/-- The span of a node that stands nowhere in a file. -/
def dummy : Span := ⟨0, 0⟩

def isDummy (span : Span) : Bool := span.lo == 0 && span.hi == 0

/-- Whether the byte at `position` lies in the span. -/
def contains (span : Span) (position : Nat) : Bool :=
  span.lo ≤ position && position < span.hi

/-- The span from the start of the first to the end of the second. -/
def cover (first last : Span) : Span := ⟨first.lo, last.hi⟩

def shift (offset : Nat) (span : Span) : Span := ⟨span.lo + offset, span.hi + offset⟩

end Span

end StoreLint
