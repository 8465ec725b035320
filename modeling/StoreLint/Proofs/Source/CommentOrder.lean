import Mathlib.Data.Finmap
import StoreLint.Grammar.Token
import StoreLint.Proofs.Source.LeadingRun

/-!
# The list of the comments of a file

Comments are met attached to tokens: some to the token behind them and some to the token in
front of them, and the same comment may be attached to both.  The tables in which they are
kept have no order.  `canonical_of_metAs` says that the list of the comments does not depend
on the order in which the tables are gone through: it is the one list that has each comment
once, by start position.  Where comments share no byte, their ends are in order too, so that
bisection finds those that are over at a position.
-/

namespace StoreLint

/-- No byte lies in both spans. -/
def Span.Disjoint (first second : Span) : Prop :=
  ∀ position, ¬(first.contains position = true ∧ second.contains position = true)

/-- A span that shares no byte with an earlier one starts behind it. -/
theorem Span.Disjoint.hi_le_lo {first second : Span} (disjoint : first.Disjoint second)
    (isEarlier : first.lo < second.lo) (nonempty : second.lo < second.hi) :
    first.hi ≤ second.lo := by
  have apart := disjoint second.lo
  simp only [contains, Bool.and_eq_true, decide_eq_true_eq] at apart
  omega

/-! ## One comment for each start -/

namespace Comment

theorem pairwise_dropRepeatedAfter {start : Nat} {comments : List Comment}
    (ascending : (start :: comments.map fun comment => comment.span.lo).Pairwise (· ≤ ·)) :
    (start :: (dropRepeatedAfter start comments).map fun comment => comment.span.lo).Pairwise
      (· < ·) := by
  induction comments generalizing start with
  | nil => exact List.pairwise_singleton _ _
  | cons comment comments induction =>
      rw [List.map_cons] at ascending
      obtain ⟨behindStart, fromComment⟩ := List.pairwise_cons.mp ascending
      have isBehind : start ≤ comment.span.lo := behindStart _ List.mem_cons_self
      rw [dropRepeatedAfter]
      split
      next repeats =>
        rw [repeats] at fromComment
        exact induction fromComment
      next isNew =>
        have rest := induction fromComment
        have isLater : start < comment.span.lo := by omega
        rw [List.map_cons]
        refine List.pairwise_cons.mpr ⟨List.forall_mem_cons.mpr ⟨isLater, ?_⟩, rest⟩
        intro later isRest
        exact Nat.lt_trans isLater ((List.pairwise_cons.mp rest).1 later isRest)

theorem dropRepeatedAfter_sublist (start : Nat) (comments : List Comment) :
    (dropRepeatedAfter start comments).Sublist comments := by
  induction comments generalizing start with
  | nil => exact .slnil
  | cons comment comments induction =>
      rw [dropRepeatedAfter]
      split
      · exact (induction start).cons comment
      · exact (induction comment.span.lo).cons_cons comment

/-- Only comments with a start that has been met are dropped. -/
theorem exists_mem_dropRepeatedAfter (start : Nat) {comments : List Comment} {comment : Comment}
    (isMember : comment ∈ comments) :
    comment.span.lo = start ∨
      ∃ kept ∈ dropRepeatedAfter start comments, kept.span.lo = comment.span.lo := by
  induction comments generalizing start with
  | nil => cases isMember
  | cons first comments induction =>
      rw [dropRepeatedAfter]
      rcases List.mem_cons.mp isMember with rfl | isLater
      · split
        next repeats => exact .inl repeats
        next => exact .inr ⟨comment, List.mem_cons_self, rfl⟩
      · split
        next => exact induction start isLater
        next =>
          rcases induction first.span.lo isLater with sameStart | ⟨kept, isKept, same⟩
          · exact .inr ⟨first, List.mem_cons_self, sameStart.symm⟩
          · exact .inr ⟨kept, List.mem_cons_of_mem _ isKept, same⟩

theorem pairwise_dropRepeated {comments : List Comment}
    (ascending : comments.Pairwise fun first second => first.span.lo ≤ second.span.lo) :
    (dropRepeated comments).Pairwise fun first second => first.span.lo < second.span.lo := by
  cases comments with
  | nil => exact .nil
  | cons comment comments =>
      rw [← List.pairwise_map (R := (· ≤ ·))] at ascending
      rw [← List.pairwise_map (R := (· < ·)), dropRepeated]
      exact pairwise_dropRepeatedAfter ascending

theorem mem_of_mem_dropRepeated {comments : List Comment} {comment : Comment}
    (isKept : comment ∈ dropRepeated comments) : comment ∈ comments := by
  cases comments with
  | nil => exact isKept
  | cons first comments =>
      exact ((dropRepeatedAfter_sublist first.span.lo comments).cons_cons first).subset isKept

theorem exists_mem_dropRepeated {comments : List Comment} {comment : Comment}
    (isMember : comment ∈ comments) :
    ∃ kept ∈ dropRepeated comments, kept.span.lo = comment.span.lo := by
  cases comments with
  | nil => cases isMember
  | cons first comments =>
      rcases List.mem_cons.mp isMember with rfl | isLater
      · exact ⟨comment, List.mem_cons_self, rfl⟩
      · rcases exists_mem_dropRepeatedAfter first.span.lo isLater with
          sameStart | ⟨kept, isKept, same⟩
        · exact ⟨first, List.mem_cons_self, sameStart.symm⟩
        · exact ⟨kept, List.mem_cons_of_mem _ isKept, same⟩

/-- The starts of the listed comments ascend. -/
theorem pairwise_canonical (comments : List Comment) :
    (canonical comments).Pairwise fun first second => first.span.lo < second.span.lo := by
  apply pairwise_dropRepeated
  have sorted : (comments.mergeSort fun left right => left.span.lo ≤ right.span.lo).Pairwise
      fun left right => decide (left.span.lo ≤ right.span.lo) = true := by
    apply List.pairwise_mergeSort
    · intro first second third
      simpa using Nat.le_trans
    · intro first second
      simpa using Nat.le_total first.span.lo second.span.lo
  simpa using sorted

/-- Where the start of a comment tells which comment it is, no comment is lost. -/
theorem mem_canonical_iff {comments : List Comment}
    (determined : ∀ first ∈ comments, ∀ second ∈ comments, first.span.lo = second.span.lo →
      first = second) {comment : Comment} :
    comment ∈ canonical comments ↔ comment ∈ comments := by
  have sorted := List.mergeSort_perm comments fun left right => left.span.lo ≤ right.span.lo
  constructor
  · intro isListed
    exact sorted.mem_iff.mp (mem_of_mem_dropRepeated isListed)
  · intro isMember
    obtain ⟨kept, isKept, sameStart⟩ := exists_mem_dropRepeated (sorted.mem_iff.mpr isMember)
    have isSame := determined kept (sorted.mem_iff.mp (mem_of_mem_dropRepeated isKept)) comment
      isMember sameStart
    exact isSame ▸ isKept

theorem nodup_of_ascending {comments : List Comment}
    (ascending : comments.Pairwise fun first second => first.span.lo < second.span.lo) :
    comments.Nodup := by
  apply ascending.imp
  rintro first second isEarlier rfl
  exact Nat.lt_irrefl _ isEarlier

/-- A list in ascending order is known by its members. -/
theorem eq_of_ascending {left right : List Comment}
    (leftAscends : left.Pairwise fun first second => first.span.lo < second.span.lo)
    (rightAscends : right.Pairwise fun first second => first.span.lo < second.span.lo)
    (same : ∀ comment, comment ∈ left ↔ comment ∈ right) : left = right := by
  have perm := (List.perm_ext_iff_of_nodup (nodup_of_ascending leftAscends)
    (nodup_of_ascending rightAscends)).mpr same
  apply perm.eq_of_pairwise _ leftAscends rightAscends
  intro first second _ _ forth back
  omega

end Comment

/-! ## Comments that are read -/

namespace Grammar

/-- The comment that is being read has its opening delimiter behind it. -/
def GapMode.Entered (position : Nat) : GapMode → Prop
  | .between => True
  | .line start _ | .block start _ => start + 2 ≤ position

/-- A comment that is read from a text is not empty, since it has delimiters. -/
theorem lo_lt_hi_of_mem_readGap {mode : GapMode} {comments : List Comment} {newline : Bool}
    {position : Nat} {chars : List Char} (entered : mode.Entered position)
    (nonempty : ∀ comment ∈ comments, comment.span.lo < comment.span.hi) :
    ∀ comment ∈ (readGap mode comments newline position chars).comments,
      comment.span.lo < comment.span.hi := by
  have added {kind : CommentKind} {text : String} {start finish : Nat} (isBehind : start < finish)
      {comments : List Comment}
      (nonempty : ∀ comment ∈ comments, comment.span.lo < comment.span.hi) :
      ∀ comment ∈ Comment.mk kind text ⟨start, finish⟩ :: comments,
        comment.span.lo < comment.span.hi :=
    List.forall_mem_cons.mpr ⟨isBehind, nonempty⟩
  fun_induction readGap mode comments newline position chars with
  | case1 comments newline position rest induction => exact induction (Nat.le_refl _) nonempty
  | case2 comments newline position rest induction => exact induction (Nat.le_refl _) nonempty
  | case3 comments newline position c rest _ _ isEnd induction => exact induction trivial nonempty
  | case4 comments newline position c rest _ _ notEnd isSpace induction =>
      exact induction trivial nonempty
  | case5 => simpa using nonempty
  | case6 => simpa using nonempty
  | case7 start text comments newline position c rest isEnd comment induction =>
      simp only [GapMode.Entered] at entered
      exact induction trivial (added (by omega) nonempty)
  | case8 start text comments newline position c rest notEnd induction =>
      simp only [GapMode.Entered] at entered induction
      exact induction (by omega) nonempty
  | case9 start text comments newline position comment =>
      simp only [GapMode.Entered] at entered
      simpa only [List.mem_reverse] using added (by omega) nonempty
  | case10 start text comments newline position rest comment induction =>
      simp only [GapMode.Entered] at entered
      exact induction trivial (added (by omega) nonempty)
  | case11 start text comments newline position c rest notEnd induction =>
      simp only [GapMode.Entered] at entered induction
      exact induction (by omega) nonempty
  | case12 => simpa using nonempty

end Grammar

/-! ## Attached comments -/

/-- Comments by the position of the token that they are attached to. -/
abbrev CommentTable := Finmap fun _ : Nat => List Comment

namespace CommentTable

/-- The comment is attached to some token. -/
def Holds (table : CommentTable) (comment : Comment) : Prop :=
  ∃ position comments, table.lookup position = some comments ∧ comment ∈ comments

/-- The list goes through the table in some order and has each entry once. -/
def ListedBy (table : CommentTable) (entries : List (Σ _ : Nat, List Comment)) : Prop :=
  (entries : Multiset (Σ _ : Nat, List Comment)) = table.entries

theorem exists_listedBy (table : CommentTable) : ∃ entries, table.ListedBy entries :=
  Quot.exists_rep table.entries

theorem ListedBy.mem_flatMap_iff {table : CommentTable} {entries : List (Σ _ : Nat, List Comment)}
    (listed : table.ListedBy entries) {comment : Comment} :
    comment ∈ entries.flatMap Sigma.snd ↔ table.Holds comment := by
  have isEntry : ∀ entry, entry ∈ entries ↔ table.lookup entry.1 = some entry.2 := by
    intro entry
    rw [Finmap.lookup_eq_some_iff, ← listed, Multiset.mem_coe]
  rw [List.mem_flatMap]
  constructor
  · rintro ⟨⟨position, comments⟩, isListed, isMember⟩
    exact ⟨position, comments, (isEntry _).mp isListed, isMember⟩
  · rintro ⟨position, comments, isFound, isMember⟩
    exact ⟨⟨position, comments⟩, (isEntry _).mpr isFound, isMember⟩

end CommentTable

/-- The comments of a file as they are met. -/
structure AttachedComments where
  /-- The comments that are attached to the token behind them. -/
  leading : CommentTable
  /-- The comments that are attached to the token in front of them. -/
  trailing : CommentTable

namespace AttachedComments

/-- The comment is attached to some token. -/
def Holds (attached : AttachedComments) (comment : Comment) : Prop :=
  attached.leading.Holds comment ∨ attached.trailing.Holds comment

/-- Going through one table and then through the other one meets the comments in that order. -/
def MetAs (attached : AttachedComments) (comments : List Comment) : Prop :=
  ∃ leading trailing, attached.leading.ListedBy leading ∧ attached.trailing.ListedBy trailing ∧
    comments = (leading ++ trailing).flatMap Sigma.snd

/-- Comments that start at the same position are the same comment. -/
def OnePerStart (attached : AttachedComments) : Prop :=
  ∀ first second, attached.Holds first → attached.Holds second →
    first.span.lo = second.span.lo → first = second

/-- No two comments share a byte. -/
structure Apart (attached : AttachedComments) : Prop where
  disjoint : ∀ first second, attached.Holds first → attached.Holds second → first ≠ second →
    first.span.Disjoint second.span
  /-- A comment has delimiters (`Grammar.lo_lt_hi_of_mem_readGap`), so there is a byte in it. -/
  nonempty : ∀ comment, attached.Holds comment → comment.span.lo < comment.span.hi

variable {attached : AttachedComments} {comments : List Comment}

theorem exists_metAs (attached : AttachedComments) : ∃ comments, attached.MetAs comments := by
  obtain ⟨leading, leadingListed⟩ := attached.leading.exists_listedBy
  obtain ⟨trailing, trailingListed⟩ := attached.trailing.exists_listedBy
  exact ⟨_, leading, trailing, leadingListed, trailingListed, rfl⟩

theorem MetAs.mem_iff (met : attached.MetAs comments) {comment : Comment} :
    comment ∈ comments ↔ attached.Holds comment := by
  obtain ⟨leading, trailing, leadingListed, trailingListed, rfl⟩ := met
  rw [List.flatMap_append, List.mem_append, leadingListed.mem_flatMap_iff,
    trailingListed.mem_flatMap_iff, Holds]

theorem MetAs.mem_canonical_iff (met : attached.MetAs comments)
    (onePerStart : attached.OnePerStart) {comment : Comment} :
    comment ∈ Comment.canonical comments ↔ attached.Holds comment := by
  rw [Comment.mem_canonical_iff, met.mem_iff]
  intro first isFirst second isSecond
  exact onePerStart first second (met.mem_iff.mp isFirst) (met.mem_iff.mp isSecond)

/-- Comments that lie apart and are listed by their starts are over before the next one starts. -/
theorem Apart.pairwise_over (apart : attached.Apart) {listed : List Comment}
    (ascending : listed.Pairwise fun first second => first.span.lo < second.span.lo)
    (holds : ∀ comment ∈ listed, attached.Holds comment) :
    listed.Pairwise fun first second => first.span.hi ≤ second.span.lo := by
  apply ascending.imp_of_mem
  intro first second isFirst isSecond isEarlier
  have different : first ≠ second := by
    rintro rfl
    exact Nat.lt_irrefl _ isEarlier
  have disjoint := apart.disjoint first second (holds first isFirst) (holds second isSecond)
    different
  exact disjoint.hi_le_lo isEarlier (apart.nonempty second (holds second isSecond))

/-- The list of the comments is the same however they are met. -/
theorem canonical_of_metAs (attached : AttachedComments) (onePerStart : attached.OnePerStart) :
    ∃ listed, (∀ comments, attached.MetAs comments → Comment.canonical comments = listed) ∧
      (listed.Pairwise fun first second => first.span.lo < second.span.lo) ∧
      listed.Nodup ∧ (∀ comment, comment ∈ listed ↔ attached.Holds comment) ∧
      (attached.Apart →
        (listed.Pairwise fun first second => first.span.hi < second.span.hi) ∧
        ∀ source position, CommentIndex.ended ⟨listed, source⟩ position =
          listed.filter fun comment => comment.span.hi ≤ position) := by
  -- The order in which the comments are met first is as good as any other.
  obtain ⟨met, isMet⟩ := attached.exists_metAs
  have ascending := Comment.pairwise_canonical met
  have holds : ∀ comment, comment ∈ Comment.canonical met ↔ attached.Holds comment :=
    fun comment => isMet.mem_canonical_iff onePerStart
  refine ⟨Comment.canonical met, ?_, ascending, Comment.nodup_of_ascending ascending, holds, ?_⟩
  · intro comments otherMet
    apply Comment.eq_of_ascending (Comment.pairwise_canonical comments) ascending
    intro comment
    rw [otherMet.mem_canonical_iff onePerStart, holds]
  · intro apart
    have nonempty : ∀ comment ∈ Comment.canonical met, comment.span.lo < comment.span.hi :=
      fun comment isListed => apart.nonempty comment ((holds comment).mp isListed)
    have follow := apart.pairwise_over ascending fun comment => (holds comment).mp
    constructor
    · apply follow.imp_of_mem
      intro first second _ isSecond isOver
      exact Nat.lt_of_le_of_lt isOver (nonempty second isSecond)
    · intro source position
      have orderly : CommentIndex.Orderly ⟨Comment.canonical met, source⟩ :=
        ⟨follow, fun comment isListed => Nat.le_of_lt (nonempty comment isListed)⟩
      exact orderly.ended_eq_filter position

end AttachedComments

/-- The first comment of
```
x = { /* a */ y, // b
 z }
```
-/
def blockComment : Comment := ⟨.block, " a ", ⟨7, 14⟩⟩

def lineComment : Comment := ⟨.line, " b", ⟨18, 22⟩⟩

/-- The two comments, the first one attached both to the brace in front of it and to the name behind
it. -/
def doublyAttached : AttachedComments where
  leading := [⟨24, [lineComment]⟩, ⟨15, [blockComment]⟩].toFinmap
  trailing := [⟨6, [blockComment]⟩].toFinmap

namespace AttachedComments

theorem metAs_doublyAttached :
    doublyAttached.MetAs [lineComment, blockComment, blockComment] ∧
      doublyAttached.MetAs [blockComment, lineComment, blockComment] := by
  constructor
  · exact ⟨[⟨24, [lineComment]⟩, ⟨15, [blockComment]⟩], [⟨6, [blockComment]⟩], rfl, rfl, rfl⟩
  · exact ⟨[⟨15, [blockComment]⟩, ⟨24, [lineComment]⟩], [⟨6, [blockComment]⟩],
      Multiset.coe_eq_coe.mpr (.swap _ _ _), rfl, rfl⟩

theorem holds_doublyAttached_iff {comment : Comment} :
    doublyAttached.Holds comment ↔ comment = blockComment ∨ comment = lineComment := by
  rw [← metAs_doublyAttached.2.mem_iff]
  simp only [List.mem_cons, List.not_mem_nil, or_false]
  tauto

/-- Both orders in which the comments can be met give the list of the two. -/
theorem canonical_of_metAs_doublyAttached :
    doublyAttached.OnePerStart ∧ doublyAttached.Apart ∧
      Comment.canonical [lineComment, blockComment, blockComment] = [blockComment, lineComment] ∧
      Comment.canonical [blockComment, lineComment, blockComment] = [blockComment, lineComment] ∧
      ∀ source, CommentIndex.ended ⟨[blockComment, lineComment], source⟩ 20 = [blockComment] := by
  have onePerStart : doublyAttached.OnePerStart := by
    simp only [OnePerStart, holds_doublyAttached_iff]
    rintro first second (rfl | rfl) (rfl | rfl) sameStart
    · rfl
    · cases sameStart
    · cases sameStart
    · rfl
  have apart : doublyAttached.Apart := by
    constructor
    · simp only [holds_doublyAttached_iff, Span.Disjoint, Span.contains, Bool.and_eq_true,
        decide_eq_true_eq]
      rintro first second (rfl | rfl) (rfl | rfl) different position
      · exact absurd rfl different
      · simp only [blockComment, lineComment]
        omega
      · simp only [blockComment, lineComment]
        omega
      · exact absurd rfl different
    · simp only [holds_doublyAttached_iff]
      rintro comment (rfl | rfl)
      · decide
      · decide
  obtain ⟨listed, same, ascending, _, holds, ended⟩ :=
    canonical_of_metAs doublyAttached onePerStart
  have isListed : listed = [blockComment, lineComment] := by
    apply Comment.eq_of_ascending ascending (by decide)
    intro comment
    simp [holds, holds_doublyAttached_iff]
  subst isListed
  refine ⟨onePerStart, apart, same _ metAs_doublyAttached.1, same _ metAs_doublyAttached.2, ?_⟩
  intro source
  exact (ended apart).2 source 20

end AttachedComments

end StoreLint
