import StoreLint.Proofs.Source.Gaps
import StoreLint.Proofs.Tree.Shift

/-!
# Comments of shifted files

Comments are found by their positions, and the gaps between them are cut out of the
text by position too.  So the comments in front of a shifted position are the shifted
ones, provided that the gaps are the same.  They are when the text starts further on,
and also when it starts at the same position with other text in front of it.
-/

namespace StoreLint

/-- The comment moved `offset` bytes further on. -/
def Comment.shift (offset : Nat) (comment : Comment) : Comment :=
  { comment with span := comment.span.shift offset }

/-- The text read from a position `offset` bytes further on. -/
def SourceText.shift (offset : Nat) (source : SourceText) : SourceText :=
  { source with start := source.start + offset }

/-- The text with another one in front of it, read from the same position. -/
def SourceText.padded (pad : String) (source : SourceText) : SourceText :=
  { source with text := pad ++ source.text }

variable {offset : Nat}

theorem SourceText.slice_shift (source : SourceText) (lo hi : Nat) :
    (source.shift offset).slice (lo + offset) (hi + offset) = source.slice lo hi := by
  simp [SourceText.slice, SourceText.shift, Nat.add_sub_add_right]

theorem SourceText.slice_padded (source : SourceText) (pad : String) {lo : Nat}
    (behind : source.start ≤ lo) (hi : Nat) :
    (source.padded pad).slice (lo + pad.utf8ByteSize) (hi + pad.utf8ByteSize) =
      source.slice lo hi := by
  have chars : (source.padded pad).text.toList = pad.toList ++ source.text.toList := by
    simp [SourceText.padded]
  have size : pad.utf8ByteSize = String.utf8Len pad.toList := by
    rw [← String.utf8ByteSize_ofList, String.ofList_toList]
  have moved : lo + pad.utf8ByteSize - source.start =
      String.utf8Len pad.toList + (lo - source.start) := by
    omega
  have inside : ¬lo + pad.utf8ByteSize < source.start := by omega
  have sameStart : (source.padded pad).start = source.start := rfl
  simp only [SourceText.slice, chars, sameStart, moved, dropBytes_append, Nat.add_sub_add_right]
  simp [inside, Nat.not_lt.mpr behind]

theorem hasLeadingDoc_shift (comments : List Comment) :
    hasLeadingDoc (comments.map (Comment.shift offset)) = hasLeadingDoc comments := by
  rw [hasLeadingDoc, hasLeadingDoc, List.any_map]
  rfl

namespace CommentIndex

/-- The gaps behind the comments are the same in a text that is read further on. -/
def SameGaps (offset : Nat) (comments : List Comment) (source shifted : SourceText) : Prop :=
  ∀ comment ∈ comments, ∀ boundary,
    shifted.slice (comment.span.hi + offset) (boundary + offset) =
      source.slice comment.span.hi boundary

theorem runBefore_shift {source shifted : SourceText} {comments : List Comment}
    (sameGaps : SameGaps offset comments source shifted) (transparent : List Char → Bool)
    (boundary : Nat) :
    runBefore shifted transparent (boundary + offset) (comments.map (Comment.shift offset)) =
      (runBefore source transparent boundary comments).map (Comment.shift offset) := by
  induction comments generalizing transparent boundary with
  | nil => rfl
  | cons comment comments induction =>
      have gap := sameGaps comment (by simp) boundary
      have rest := induction fun other isOther => sameGaps other (List.mem_cons_of_mem _ isOther)
      have sameLo : (comment.shift offset).span.lo = comment.span.lo + offset := rfl
      have sameHi : (comment.shift offset).span.hi = comment.span.hi + offset := rfl
      rw [List.map_cons, runBefore, runBefore, sameHi, sameLo, gap, rest]
      cases source.slice comment.span.hi boundary with
      | none => rfl
      | some found =>
          by_cases isTransparent : transparent found = true
          · simp [isTransparent]
          · simp [isTransparent]

theorem ended_shift (comments : List Comment) (source shifted : SourceText) (position : Nat) :
    ended ⟨comments.map (Comment.shift offset), shifted⟩ (position + offset) =
      (ended ⟨comments, source⟩ position).map (Comment.shift offset) := by
  have sameTest : (fun comment : Comment => decide (comment.span.hi ≤ position + offset)) ∘
      Comment.shift offset = fun comment => decide (comment.span.hi ≤ position) := by
    funext comment
    simp [Comment.shift, Span.shift]
  simp only [ended, bisect_map, sameTest, List.map_take]

/-- The comments in front of a shifted position are the shifted ones. -/
theorem before_shift {comments : List Comment} {source shifted : SourceText}
    (sameGaps : SameGaps offset comments source shifted) (position : Nat) :
    before ⟨comments.map (Comment.shift offset), shifted⟩ (position + offset) =
      (before ⟨comments, source⟩ position).map (Comment.shift offset) := by
  have endedGaps : SameGaps offset (ended ⟨comments, source⟩ position).reverse source shifted := by
    intro comment isEnded
    apply sameGaps comment
    exact List.mem_of_mem_take (List.mem_reverse.mp isEnded)
  simp only [before, ended_shift comments source]
  rw [← List.map_reverse, runBefore_shift endedGaps, List.map_reverse]

end CommentIndex

namespace Comment

theorem dropRepeatedAfter_shift (start : Nat) (comments : List Comment) :
    dropRepeatedAfter (start + offset) (comments.map (shift offset)) =
      (dropRepeatedAfter start comments).map (shift offset) := by
  induction comments generalizing start with
  | nil => rfl
  | cons comment comments induction =>
      have sameLo : (comment.shift offset).span.lo = comment.span.lo + offset := rfl
      rw [List.map_cons, dropRepeatedAfter, dropRepeatedAfter, sameLo, induction, induction]
      by_cases repeats : comment.span.lo = start
      · simp [repeats]
      · simp [repeats]

/-- The comments of a shifted file are listed in the same order, each once. -/
theorem canonical_shift (comments : List Comment) :
    canonical (comments.map (shift offset)) = (canonical comments).map (shift offset) := by
  have sorted : ((comments.map (shift offset)).mergeSort fun left right =>
      left.span.lo ≤ right.span.lo) =
      (comments.mergeSort fun left right => left.span.lo ≤ right.span.lo).map (shift offset) := by
    symm
    apply List.map_mergeSort
    intro left _ right _
    simp [shift, Span.shift]
  rw [canonical, canonical, sorted]
  cases comments.mergeSort fun left right => left.span.lo ≤ right.span.lo with
  | nil => rfl
  | cons comment comments =>
      rw [List.map_cons, dropRepeated, dropRepeated, List.map_cons]
      congr 1
      exact dropRepeatedAfter_shift comment.span.lo comments

end Comment

end StoreLint
