import Mathlib.Data.List.Chain
import StoreLint.Proofs.Source.Gaps

/-!
# The run of comments in front of a position

The comments in front of a position are the longest run of neighbouring comments that
ends with the last comment that is over by then, where only white space stands between
the comments, and only white space and modifiers between the last one and the position.

The comments that are over are found by bisection.  Where the comments are sorted and lie
apart, their ends are sorted too, so bisection finds the same comments as a look at each
of them.
-/

namespace StoreLint

section Bisection

theorem bisectFrom_spec (point steps base size : Nat) (starts : base < point ∨ base = 0)
    (reaches : point ≤ base + size) (enough : size ≤ steps + 1) :
    (bisectFrom (fun index => decide (index < point)) steps base size < point ∨
        bisectFrom (fun index => decide (index < point)) steps base size = 0) ∧
      point ≤ bisectFrom (fun index => decide (index < point)) steps base size + 1 := by
  induction steps generalizing base size with
  | zero =>
      rw [bisectFrom]
      exact ⟨starts, by omega⟩
  | succ steps induction =>
      rw [bisectFrom]
      split
      · exact ⟨starts, by omega⟩
      · apply induction
        · split
          next passes => exact .inl (by simpa using passes)
          next => exact starts
        · split
          next => omega
          next fails =>
            simp only [decide_eq_true_eq] at fails
            omega
        · omega

variable {α : Type} {test : α → Bool}

theorem bisect_append {passing failing : List α} (pass : ∀ item ∈ passing, test item = true)
    (fail : ∀ item ∈ failing, test item = false) :
    bisect (passing ++ failing) test = passing.length := by
  have passes (index : Nat) :
      (passing ++ failing)[index]?.any test = decide (index < passing.length) := by
    by_cases isPassing : index < passing.length
    · rw [List.getElem?_append_left isPassing, List.getElem?_eq_getElem isPassing]
      simp [isPassing, pass]
    · rw [List.getElem?_append_right (Nat.not_lt.mp isPassing), decide_eq_false isPassing]
      cases isFailing : failing[index - passing.length]? with
      | none => rfl
      | some item => exact fail item (List.mem_of_getElem? isFailing)
  have arrives := bisectFrom_spec passing.length (passing ++ failing).length 0
    (passing ++ failing).length (.inr rfl) (by simp) (by omega)
  simp only [bisect, passes, decide_eq_true_eq]
  split
  · omega
  · omega

theorem exists_passing_append_failing {items : List α}
    (partitioned : items.Pairwise fun first second => test second = true → test first = true) :
    ∃ passing failing, items = passing ++ failing ∧ (∀ item ∈ passing, test item = true) ∧
      ∀ item ∈ failing, test item = false := by
  induction items with
  | nil => exact ⟨[], [], rfl, by simp, by simp⟩
  | cons item items induction =>
      obtain ⟨ofItem, ofItems⟩ := List.pairwise_cons.mp partitioned
      by_cases passes : test item = true
      · obtain ⟨passing, failing, rfl, pass, fail⟩ := induction ofItems
        exact ⟨item :: passing, failing, rfl, List.forall_mem_cons.mpr ⟨passes, pass⟩, fail⟩
      · rw [Bool.not_eq_true] at passes
        refine ⟨[], item :: items, rfl, by simp, List.forall_mem_cons.mpr ⟨passes, ?_⟩⟩
        intro later isLater
        rw [Bool.eq_false_iff]
        intro laterPasses
        rw [ofItem later isLater laterPasses] at passes
        cases passes

theorem filter_passing_append_failing {passing failing : List α}
    (pass : ∀ item ∈ passing, test item = true) (fail : ∀ item ∈ failing, test item = false) :
    (passing ++ failing).filter test = passing := by
  have noFailing : failing.filter test = [] := by
    rw [List.filter_eq_nil_iff]
    intro item isFailing
    simp [fail item isFailing]
  rw [List.filter_append, List.filter_eq_self.mpr pass, noFailing, List.append_nil]

/-- If no item passes the test after one that fails it, bisection finds those that pass. -/
theorem take_bisect {items : List α}
    (partitioned : items.Pairwise fun first second => test second = true → test first = true) :
    items.take (bisect items test) = items.filter test := by
  obtain ⟨passing, failing, rfl, pass, fail⟩ := exists_passing_append_failing partitioned
  rw [bisect_append pass fail, List.take_left, filter_passing_append_failing pass fail]

end Bisection

namespace SourceText

/-- Only white space stands between the two positions. -/
def BlankBetween (source : SourceText) (lo hi : Nat) : Prop :=
  ∃ gap, source.Between lo hi gap ∧ ∀ c ∈ gap, Blank.isBlank c = true

/-- Only white space and modifiers stand between the two positions. -/
def ModifiersBetween (source : SourceText) (lo hi : Nat) : Prop :=
  ∃ gap, source.Between lo hi gap ∧ ModifierText gap

/-- The comments stand one after the other in front of the position. -/
structure LeadsTo (source : SourceText) (position : Nat) (run : List Comment) : Prop where
  joined : run.IsChain fun first second => source.BlankBetween first.span.hi second.span.lo
  reaches : ∀ last ∈ run.getLast?, source.ModifiersBetween last.span.hi position

end SourceText

namespace CommentIndex

/-- The gap in front of the boundary, and each gap between the comments, is one that the search
steps over.  The comments are listed last first. -/
def Linked (source : SourceText) (transparent : List Char → Bool) (boundary : Nat) :
    List Comment → Prop
  | [] => True
  | comment :: comments =>
      (∃ gap, source.Between comment.span.hi boundary gap ∧ transparent gap = true) ∧
        Linked source isBlankGap comment.span.lo comments

section Search

variable {source : SourceText} {transparent : List Char → Bool} {boundary : Nat}

theorem runBefore_prefix (comments : List Comment) :
    runBefore source transparent boundary comments <+: comments := by
  fun_induction runBefore source transparent boundary comments with
  | case1 => exact List.prefix_rfl
  | case2 => exact List.nil_prefix
  | case3 transparent boundary comment comments gap cut isTransparent induction =>
      exact List.cons_prefix_cons.mpr ⟨rfl, induction⟩
  | case4 => exact List.nil_prefix

/-- The search goes on as long as the gaps allow. -/
theorem prefix_runBefore_iff {comments run : List Comment} (isPrefix : run <+: comments) :
    run <+: runBefore source transparent boundary comments ↔
      Linked source transparent boundary run := by
  induction comments generalizing run transparent boundary with
  | nil =>
      rw [List.prefix_nil.mp isPrefix]
      simp [Linked]
  | cons comment comments induction =>
      rcases List.prefix_cons_iff.mp isPrefix with rfl | ⟨rest, rfl, restPrefix⟩
      · simp [Linked]
      · rw [runBefore, Linked]
        cases cut : source.slice comment.span.hi boundary with
        | none =>
            constructor
            · intro inNothing
              simp at inNothing
            · rintro ⟨⟨gap, isBetween, _⟩, _⟩
              rw [SourceText.slice_eq_some_iff.mpr isBetween] at cut
              cases cut
        | some gap =>
            have isBetween := SourceText.slice_eq_some_iff.mp cut
            have isGap : ∀ other, source.Between comment.span.hi boundary other → other = gap := by
              intro other isOther
              rw [← SourceText.slice_eq_some_iff, cut] at isOther
              exact (Option.some.inj isOther).symm
            by_cases isTransparent : transparent gap = true
            · simp only [isTransparent, ↓reduceIte, List.cons_prefix_cons, true_and,
                induction restPrefix]
              constructor
              · intro linked
                exact ⟨⟨gap, isBetween, isTransparent⟩, linked⟩
              · exact And.right
            · constructor
              · intro inNothing
                simp [isTransparent] at inNothing
              · rintro ⟨⟨other, isOther, otherTransparent⟩, _⟩
                rw [isGap other isOther] at otherTransparent
                exact absurd otherTransparent isTransparent

theorem isBlankGap_iff {gap : List Char} :
    isBlankGap gap = true ↔ ∀ c ∈ gap, Blank.isBlank c = true := by
  rw [isBlankGap, List.all_eq_true]

theorem linked_blank_reverse_iff {run : List Comment} :
    Linked source isBlankGap boundary run.reverse ↔
      (run.IsChain fun first second => source.BlankBetween first.span.hi second.span.lo) ∧
        ∀ last ∈ run.getLast?, source.BlankBetween last.span.hi boundary := by
  induction run using List.reverseRecOn generalizing boundary with
  | nil => simp [Linked]
  | append_singleton run last induction =>
      simp only [List.reverse_append, List.reverse_cons, List.reverse_nil, List.nil_append,
        List.singleton_append, Linked, induction, isBlankGap_iff, List.isChain_append,
        List.isChain_singleton, List.head?_cons, List.getLast?_concat, Option.mem_def,
        Option.some.injEq, forall_eq', true_and, SourceText.BlankBetween]
      exact And.comm

theorem linked_reverse_iff {position : Nat} {run : List Comment} :
    Linked source isModifierGap position run.reverse ↔ source.LeadsTo position run := by
  rcases List.eq_nil_or_concat run with rfl | ⟨run, last, rfl⟩
  · constructor
    · intro _
      exact ⟨List.IsChain.nil, by simp⟩
    · intro _
      trivial
  · rw [List.concat_eq_append, List.reverse_concat, Linked, linked_blank_reverse_iff]
    simp only [isModifierGap_iff]
    constructor
    · rintro ⟨reaches, joined, joinsLast⟩
      constructor
      · simpa [List.isChain_append] using ⟨joined, joinsLast⟩
      · intro other isLast
        rw [List.getLast?_concat, Option.mem_some] at isLast
        exact isLast ▸ reaches
    · rintro ⟨joined, reaches⟩
      refine ⟨reaches last (by simp), ?_⟩
      simpa [List.isChain_append] using joined

end Search

/-- The comments are sorted and lie apart: each one is over where the next one starts. -/
structure Orderly (index : CommentIndex) : Prop where
  apart : index.comments.Pairwise fun first second => first.span.hi ≤ second.span.lo
  forward : ∀ comment ∈ index.comments, comment.span.lo ≤ comment.span.hi

theorem Orderly.pairwise_hi {index : CommentIndex} (orderly : index.Orderly) :
    index.comments.Pairwise fun first second => first.span.hi ≤ second.span.hi := by
  apply orderly.apart.imp_of_mem
  intro first second _ isSecond apart
  exact Nat.le_trans apart (orderly.forward second isSecond)

/-- Bisection finds the comments that a look at each of them finds. -/
theorem Orderly.ended_eq_filter {index : CommentIndex} (orderly : index.Orderly)
    (position : Nat) :
    index.ended position = index.comments.filter fun comment => comment.span.hi ≤ position := by
  apply take_bisect
  apply orderly.pairwise_hi.imp
  intro first second sorted secondEnded
  simp only [decide_eq_true_eq] at secondEnded ⊢
  exact Nat.le_trans sorted secondEnded

/-- The comments end with the last one that is over before the position, without a gap in the
list, and stand one after the other in front of the position. -/
structure LeadingRun (index : CommentIndex) (position : Nat) (run : List Comment) : Prop where
  isSuffix : run <:+ index.comments.filter fun comment => comment.span.hi ≤ position
  leads : index.source.LeadsTo position run

theorem before_suffix (index : CommentIndex) (position : Nat) :
    index.before position <:+ index.ended position := by
  rw [← List.reverse_prefix, before, List.reverse_reverse]
  exact runBefore_prefix _

theorem suffix_before_iff {index : CommentIndex} {position : Nat} {run : List Comment}
    (isSuffix : run <:+ index.ended position) :
    run <:+ index.before position ↔ index.source.LeadsTo position run := by
  rw [← List.reverse_prefix, before, List.reverse_reverse,
    prefix_runBefore_iff (List.reverse_prefix.mpr isSuffix), linked_reverse_iff]

/-- The comments in front of a position are the longest run that leads to it. -/
theorem before_longest {index : CommentIndex} (orderly : index.Orderly) (position : Nat) :
    index.ended position = index.comments.filter (fun comment => comment.span.hi ≤ position) ∧
      index.LeadingRun position (index.before position) ∧
      ∀ run, index.LeadingRun position run → run <:+ index.before position := by
  have isEnded := orderly.ended_eq_filter position
  refine ⟨isEnded, ⟨?_, ?_⟩, ?_⟩
  · rw [← isEnded]
    exact before_suffix index position
  · exact (suffix_before_iff (before_suffix index position)).mp List.suffix_rfl
  · intro run isRun
    apply (suffix_before_iff _).mpr isRun.leads
    rw [isEnded]
    exact isRun.isSuffix

/-- The comments of
```
/* x */ a; /** d */ // e
  async f() {}
```
-/
def methodComments : CommentIndex :=
  { comments := [⟨.block, " x ", ⟨1, 8⟩⟩, ⟨.block, "* d ", ⟨12, 20⟩⟩, ⟨.line, " e", ⟨21, 25⟩⟩]
    source := ⟨1, "/* x */ a; /** d */ // e\n  async f() \x7b\x7d"⟩ }

theorem before_longest_methodComments :
    methodComments.Orderly ∧
      methodComments.before 34 =
        [⟨.block, "* d ", ⟨12, 20⟩⟩, ⟨.line, " e", ⟨21, 25⟩⟩] ∧
      methodComments.LeadingRun 34 (methodComments.before 34) ∧
      ¬methodComments.LeadingRun 34 methodComments.comments := by
  have orderly : methodComments.Orderly := ⟨by decide, by decide⟩
  have found : methodComments.before 34 =
      [⟨.block, "* d ", ⟨12, 20⟩⟩, ⟨.line, " e", ⟨21, 25⟩⟩] := by
    decide
  obtain ⟨_, isRun, longest⟩ := before_longest orderly 34
  refine ⟨orderly, found, isRun, ?_⟩
  intro allLead
  have shorter := (longest _ allLead).length_le
  rw [found] at shorter
  revert shorter
  decide

end CommentIndex

end StoreLint
