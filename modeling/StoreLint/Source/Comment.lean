import StoreLint.Source.Span

/-!
# Comments

A comment keeps its text without the delimiters and its span with them.  The
comments of a file are listed by position, each once, whatever the order in which
they were met.
-/

namespace StoreLint

/-- Whether a comment ends with its line or at its own delimiter. -/
inductive CommentKind where
  | line
  | block
deriving DecidableEq, Repr, Inhabited

/-- A comment of a source file. -/
structure Comment where
  kind : CommentKind
  text : String
  span : Span
deriving DecidableEq, Repr, Inhabited

namespace Comment

/-- Drops every comment that starts where the comment before it starts, if the comment before
the first one starts at `start`. -/
def dropRepeatedAfter (start : Nat) : List Comment → List Comment
  | [] => []
  | comment :: comments =>
      if comment.span.lo = start then dropRepeatedAfter start comments
      else comment :: dropRepeatedAfter comment.span.lo comments

/-- Drops every comment that starts where the comment before it starts. -/
def dropRepeated : List Comment → List Comment
  | [] => []
  | comment :: comments => comment :: dropRepeatedAfter comment.span.lo comments

/-- The comments by start position, one for each start. -/
def canonical (comments : List Comment) : List Comment :=
  dropRepeated (comments.mergeSort fun left right => left.span.lo ≤ right.span.lo)

end Comment

end StoreLint
