import Mathlib.Algebra.GroupWithZero.Nat
import Mathlib.Algebra.Ring.Int.Defs
import StoreLint.Proofs.Source.LeadingRun
import StoreLint.Source.Place

/-!
# Lines and columns of a text

The lines of a text start where it starts and behind each line end, as long as there is
text left.  A place is in the line that starts last among those that start at it or
before it, and `Located` says so in terms of the characters.  The table of the line
starts is ascending, so places follow each other in the order of their offsets: the
lines are counted along the table, and in one line every character moves the place by
as many columns as it has sixteen-bit units, corrected by its width, which is never to
the left.
-/

namespace StoreLint.Place

section LineStarts

/-- A line ends between the two parts of a text. -/
def EndsLine (front back : List Char) : Prop :=
  front.getLast? = some '\n' ∨ front.getLast? = some '\r' ∧ back.head? ≠ some '\n'

theorem not_endsLine_nil (back : List Char) : ¬EndsLine [] back := by
  simp [EndsLine]

theorem endsLine_cons_iff {c : Char} {front back : List Char} (nonempty : front ≠ []) :
    EndsLine (c :: front) back ↔ EndsLine front back := by
  obtain ⟨other, rest, rfl⟩ := List.exists_cons_of_ne_nil nonempty
  rw [EndsLine, EndsLine, List.getLast?_cons_cons]

/-- The parts behind which a line ends: the first character alone, or it and more of the text. -/
theorem exists_endsLine_cons_iff {c : Char} {chars : List Char} {offset position : Nat} :
    (∃ front back, c :: chars = front ++ back ∧ EndsLine front back ∧
        position = offset + String.utf8Len front) ↔
      (EndsLine [c] chars ∧ position = offset + c.utf8Size) ∨
        ∃ front back, chars = front ++ back ∧ EndsLine front back ∧
          position = offset + c.utf8Size + String.utf8Len front := by
  constructor
  · rintro ⟨front, back, split, ends, isPosition⟩
    cases front with
    | nil => exact absurd ends (not_endsLine_nil back)
    | cons other front =>
        rw [List.cons_append, List.cons.injEq] at split
        obtain ⟨rfl, rfl⟩ := split
        cases front with
        | nil => exact .inl ⟨ends, by simpa using isPosition⟩
        | cons next front =>
            refine .inr ⟨next :: front, back, rfl, ?_, ?_⟩
            · exact (endsLine_cons_iff (List.cons_ne_nil next front)).mp ends
            · rw [isPosition, String.utf8Len_cons]
              omega
  · rintro (⟨ends, rfl⟩ | ⟨front, back, rfl, ends, rfl⟩)
    · exact ⟨[c], chars, rfl, ends, by simp⟩
    · have nonempty : front ≠ [] := by
        rintro rfl
        exact not_endsLine_nil back ends
      refine ⟨c :: front, back, rfl, (endsLine_cons_iff nonempty).mpr ends, ?_⟩
      rw [String.utf8Len_cons]
      omega

theorem utf8Size_feed : '\n'.utf8Size = 1 := by decide

theorem utf8Size_carriage : '\r'.utf8Size = 1 := by decide

theorem mem_lineStartsFrom_iff {chars : List Char} {offset position : Nat} :
    position ∈ lineStartsFrom offset chars ↔
      ∃ front back, chars = front ++ back ∧ EndsLine front back ∧
        position = offset + String.utf8Len front := by
  fun_induction lineStartsFrom offset chars with
  | case1 offset => simp [EndsLine]
  | case2 offset chars induction =>
      rw [exists_endsLine_cons_iff, List.mem_cons, induction, utf8Size_feed]
      simp [EndsLine]
  | case3 offset chars induction =>
      -- No line ends between the two characters of one line end.
      rw [exists_endsLine_cons_iff, exists_endsLine_cons_iff, List.mem_cons, induction,
        utf8Size_feed, utf8Size_carriage]
      simp [EndsLine]
  | case4 offset chars notFeed induction =>
      have ends : chars.head? ≠ some '\n' := by
        intro isFeed
        obtain ⟨rest, rfl⟩ := List.head?_eq_some_iff.mp isFeed
        exact notFeed rest rfl
      rw [exists_endsLine_cons_iff, List.mem_cons, induction, utf8Size_carriage]
      simp [EndsLine, ends]
  | case5 offset c chars notFeed notBoth notCarriage induction =>
      rw [exists_endsLine_cons_iff, induction]
      simp_all [EndsLine]

theorem utf8ByteSize_eq (text : String) : text.utf8ByteSize = String.utf8Len text.toList := by
  rw [← String.utf8ByteSize_ofList, String.ofList_toList]

theorem utf8Len_pos_iff {chars : List Char} : 0 < String.utf8Len chars ↔ chars ≠ [] := by
  cases chars with
  | nil => simp
  | cons c chars =>
      have positive := c.utf8Size_pos
      simp only [String.utf8Len_cons, ne_eq, reduceCtorEq, not_false_eq_true, iff_true]
      omega

/-- A line starts where the text starts and behind each line end, if there is text left. -/
theorem mem_lineStarts_iff {text : String} {position : Nat} :
    position ∈ lineStarts text ↔
      ∃ front back, text.toList = front ++ back ∧ back ≠ [] ∧ (front = [] ∨ EndsLine front back) ∧
        position = String.utf8Len front := by
  have isLeft {front back : List Char} (split : text.toList = front ++ back) :
      String.utf8Len front < text.utf8ByteSize ↔ back ≠ [] := by
    rw [utf8ByteSize_eq, split, String.utf8Len_append, ← utf8Len_pos_iff]
    omega
  rw [lineStarts, List.mem_filter, List.mem_cons, mem_lineStartsFrom_iff, decide_eq_true_eq]
  constructor
  · rintro ⟨rfl | ⟨front, back, split, ends, isPosition⟩, inText⟩
    · have nonempty := (isLeft (List.nil_append text.toList).symm).mp inText
      exact ⟨[], text.toList, rfl, nonempty, .inl rfl, rfl⟩
    · rw [Nat.zero_add] at isPosition
      exact ⟨front, back, split, (isLeft split).mp (isPosition ▸ inText), .inr ends, isPosition⟩
  · rintro ⟨front, back, split, nonempty, rfl | ends, rfl⟩
    · exact ⟨.inl rfl, (isLeft split).mpr nonempty⟩
    · refine ⟨.inr ⟨front, back, split, ends, ?_⟩, (isLeft split).mpr nonempty⟩
      rw [Nat.zero_add]

theorem pairwise_lt_cons {first second : Nat} {others : List Nat} (ascends : first < second)
    (pairwise : (second :: others).Pairwise (· < ·)) :
    (first :: second :: others).Pairwise (· < ·) := by
  refine List.pairwise_cons.mpr ⟨?_, pairwise⟩
  refine List.forall_mem_cons.mpr ⟨ascends, ?_⟩
  intro other isOther
  exact Nat.lt_trans ascends (List.rel_of_pairwise_cons pairwise isOther)

theorem pairwise_lineStartsFrom (offset : Nat) (chars : List Char) :
    (offset :: lineStartsFrom offset chars).Pairwise (· < ·) := by
  fun_induction lineStartsFrom offset chars with
  | case1 => exact List.pairwise_singleton _ _
  | case2 offset chars induction => exact pairwise_lt_cons (by omega) induction
  | case3 offset chars induction => exact pairwise_lt_cons (by omega) induction
  | case4 offset chars _ induction => exact pairwise_lt_cons (by omega) induction
  | case5 offset c chars _ _ _ induction =>
      have positive := c.utf8Size_pos
      exact (pairwise_lt_cons (Nat.lt_add_of_pos_right positive) induction).sublist
        (by simp)

/-- The table of the line starts is ascending. -/
theorem pairwise_lineStarts (text : String) : (lineStarts text).Pairwise (· < ·) :=
  (pairwise_lineStartsFrom 0 text.toList).filter _

end LineStarts

section Reached

def reached (text : String) (offset : Nat) : List Nat :=
  (lineStarts text).filter fun start => start ≤ offset

theorem line_ofOffset (text : String) (offset : Nat) :
    (ofOffset text offset).line = (reached text offset).length := rfl

variable {text : String} {first second offset : Nat}

theorem reached_sublist (isBefore : first ≤ second) :
    (reached text first).Sublist (reached text second) := by
  apply List.monotone_filter_right
  intro start
  simp only [decide_eq_true_eq]
  exact fun isReached => Nat.le_trans isReached isBefore

/-- An offset in the same line reaches the same line starts. -/
theorem reached_eq (same : (ofOffset text first).line = (ofOffset text second).line) :
    reached text first = reached text second := by
  rcases Nat.le_total first second with isBefore | isBefore
  · exact (reached_sublist isBefore).eq_of_length same
  · exact ((reached_sublist isBefore).eq_of_length same.symm).symm

theorem sourceLine_eq (same : (ofOffset text first).line = (ofOffset text second).line) :
    (ofOffset text first).sourceLine = (ofOffset text second).sourceLine := by
  have isReached := reached_eq same
  unfold reached at isReached
  unfold ofOffset
  dsimp only
  rw [isReached]

/-- Lines are counted in the order of the offsets. -/
theorem line_le_of_le (isBefore : first ≤ second) :
    (ofOffset text first).line ≤ (ofOffset text second).line :=
  (reached_sublist isBefore).length_le

/-- Each offset of a text that is not empty is in a line. -/
theorem line_pos (hasText : text ≠ "") (offset : Nat) : 1 ≤ (ofOffset text offset).line := by
  have nonempty : text.toList ≠ [] := by
    rwa [ne_eq, String.toList_eq_nil_iff]
  have isStart : 0 ∈ lineStarts text :=
    mem_lineStarts_iff.mpr ⟨[], text.toList, rfl, nonempty, .inl rfl, rfl⟩
  rw [line_ofOffset, Nat.one_le_iff_ne_zero, ← Nat.pos_iff_ne_zero, List.length_pos_iff_exists_mem]
  exact ⟨0, List.mem_filter.mpr ⟨isStart, by simp⟩⟩

/-- The last line start that is reached is found in the table by the number of the line. -/
theorem getElem?_lineStarts (hasText : text ≠ "") (offset : Nat) :
    (lineStarts text)[(ofOffset text offset).line - 1]? = (reached text offset).getLast? := by
  have partitioned : (lineStarts text).Pairwise fun first second =>
      decide (second ≤ offset) = true → decide (first ≤ offset) = true := by
    apply (pairwise_lineStarts text).imp
    intro first second ascends
    simp only [decide_eq_true_eq]
    omega
  obtain ⟨passing, failing, split, pass, fail⟩ := exists_passing_append_failing partitioned
  have isReached : reached text offset = passing := by
    rw [reached, split, filter_passing_append_failing pass fail]
  have counted := line_pos hasText offset
  rw [line_ofOffset, isReached] at counted ⊢
  rw [split, List.getElem?_append_left (by omega), List.getLast?_eq_getElem?]

end Reached

/-- The text is cut at an offset and at the start of the line that the offset is in: `done` are the
lines before that line, and `before` is its text up to the offset. -/
structure Located (text : String) (done before after : List Char) : Prop where
  isText : text.toList = done ++ before ++ after
  starts : done = [] ∨ before ++ after ≠ [] ∧ EndsLine done (before ++ after)
  within : ∀ more rest, before = more ++ rest → more ≠ [] → rest ++ after ≠ [] →
    ¬EndsLine (done ++ more) (rest ++ after)

section Located

variable {text : String} {done before after : List Char}

/-- Each position between two characters is in a line. -/
theorem exists_located {front after : List Char} (isText : text.toList = front ++ after) :
    ∃ done before, front = done ++ before ∧ Located text done before after := by
  induction front using List.reverseRecOn generalizing after with
  | nil => exact ⟨[], [], rfl, isText, .inl rfl, by simp⟩
  | append_singleton front c induction =>
      by_cases ends : after ≠ [] ∧ EndsLine (front ++ [c]) after
      · refine ⟨front ++ [c], [], by simp, by simpa using isText, .inr (by simpa using ends), ?_⟩
        intro more rest split nonempty
        exact absurd (List.append_eq_nil_iff.mp split.symm).1 nonempty
      · -- No line starts behind the character, so it is in the line that the text before it is in.
        rw [List.append_assoc, List.singleton_append] at isText
        obtain ⟨done, before, rfl, located⟩ := induction isText
        refine ⟨done, before ++ [c], by simp, ?_, ?_, ?_⟩
        · simpa using located.isText
        · simpa using located.starts
        · intro more rest split nonempty left endsWithin
          rcases List.eq_nil_or_concat rest with rfl | ⟨rest, last, rfl⟩
          · rw [List.append_nil] at split
            rw [← split, ← List.append_assoc] at endsWithin
            exact ends ⟨left, endsWithin⟩
          · rw [List.concat_eq_append, ← List.append_assoc] at split
            obtain ⟨rfl, isLast⟩ := List.append_inj' split rfl
            cases isLast
            apply located.within more rest rfl nonempty (by simp)
            simpa using endsWithin

/-- Only at the end of the text does the text before an offset hold a line feed. -/
theorem Located.feed_not_mem (located : Located text done before after) (further : after ≠ []) :
    '\n' ∉ before := by
  intro member
  obtain ⟨more, rest, rfl⟩ := List.append_of_mem member
  apply located.within (more ++ ['\n']) rest (by simp) (by simp) (by simp [further])
  left
  rw [← List.append_assoc, List.getLast?_concat]

/-- Of two parts that a text starts with, the one that takes no more bytes is a part of the
other. -/
theorem prefix_of_utf8Len_le {front other : List Char} {chars : List Char}
    (isFront : front <+: chars) (isOther : other <+: chars)
    (shorter : String.utf8Len front ≤ String.utf8Len other) : front <+: other := by
  rcases List.prefix_or_prefix_of_prefix isFront isOther with shorterFront | ⟨more, rfl⟩
  · exact shorterFront
  · rw [String.utf8Len_append] at shorter
    have nothing : more = [] := by
      by_contra nonempty
      have positive := utf8Len_pos_iff.mpr nonempty
      omega
    simp [nothing]

theorem getLast?_eq_of_pairwise_lt {starts : List Nat} {last : Nat}
    (ascends : starts.Pairwise (· < ·)) (member : last ∈ starts)
    (greatest : ∀ start ∈ starts, start ≤ last) : starts.getLast? = some last := by
  rcases List.eq_nil_or_concat starts with rfl | ⟨front, final, rfl⟩
  · cases member
  · rw [List.concat_eq_append] at ascends member greatest ⊢
    rw [List.getLast?_concat, Option.some.injEq]
    have isLess := greatest final (by simp)
    rcases List.mem_append.mp member with inFront | isFinal
    · have isGreater := (List.pairwise_append.mp ascends).2.2 last inFront final (by simp)
      omega
    · exact (List.mem_singleton.mp isFinal).symm

/-- No line between the one that an offset is in and the offset. -/
theorem Located.le_of_mem_reached (located : Located text done before after) :
    ∀ start ∈ reached text (String.utf8Len (done ++ before)), start ≤ String.utf8Len done := by
  intro start member
  obtain ⟨isStart, isReached⟩ := List.mem_filter.mp member
  obtain ⟨front, back, split, nonempty, ends, rfl⟩ := mem_lineStarts_iff.mp isStart
  rw [decide_eq_true_eq] at isReached
  by_contra later
  -- The part in front of a later start would end inside of the line.
  have isFront : front <+: text.toList := ⟨back, split.symm⟩
  have isDone : done <+: text.toList := by
    rw [located.isText, List.append_assoc]
    exact List.prefix_append _ _
  have isBefore : done ++ before <+: text.toList := ⟨after, located.isText.symm⟩
  obtain ⟨more, rfl⟩ := prefix_of_utf8Len_le isDone isFront (by omega)
  obtain ⟨rest, isRest⟩ := prefix_of_utf8Len_le isFront isBefore isReached
  rw [List.append_assoc, List.append_cancel_left_eq] at isRest
  subst isRest
  have isBack : back = rest ++ after := by
    have sameText := split.symm.trans located.isText
    simpa using sameText
  subst isBack
  have hasMore : more ≠ [] := by
    rintro rfl
    simp at later
  rcases ends with isNothing | ends
  · exact hasMore (List.append_eq_nil_iff.mp isNothing).2
  · exact located.within more rest rfl hasMore nonempty ends

/-- The line that an offset is in is the last one whose start is reached. -/
theorem Located.getLast?_reached (located : Located text done before after)
    (hasText : text ≠ "") :
    (reached text (String.utf8Len (done ++ before))).getLast? = some (String.utf8Len done) := by
  have nonempty : before ++ after ≠ [] := by
    rcases located.starts with rfl | ⟨nonempty, _⟩
    · intro isNothing
      apply hasText
      rw [← String.toList_eq_nil_iff, located.isText, List.append_assoc, isNothing]
      rfl
    · exact nonempty
  have isStart : String.utf8Len done ∈ lineStarts text := by
    refine mem_lineStarts_iff.mpr ⟨done, before ++ after, ?_, nonempty, ?_, rfl⟩
    · rw [located.isText, List.append_assoc]
    · exact located.starts.imp_right And.right
  apply getLast?_eq_of_pairwise_lt ((pairwise_lineStarts text).filter _) _
    located.le_of_mem_reached
  refine List.mem_filter.mpr ⟨isStart, ?_⟩
  simp

end Located

section Columns

def units (c : Char) : Nat := if c.toNat < 0x10000 then 1 else 2

/-- By how many columns a character moves the place further than by its units. -/
def correction (c : Char) : Int :=
  if c = '\t' then 3
  else if c = '\n' ∨ c = '\r' then 0
  else if DisplayWidth.isControl c = true then -1
  else DisplayWidth.ofChar c - 1

/-- A character never moves the place to the left: it has at least as many units as are taken
off. -/
theorem columnsOf_eq (c : Char) : (columnsOf c : Int) = units c + correction c := by
  have isSmall : DisplayWidth.isControl c = true → units c = 1 := by
    intro isControl
    simp only [DisplayWidth.isControl, Bool.or_eq_true, Bool.and_eq_true, decide_eq_true_eq]
      at isControl
    rw [units, if_pos (by omega)]
  have hasUnits : 1 ≤ units c := by
    unfold units
    split <;> omega
  have isTab : c = '\t' → units c = 1 := by
    rintro rfl
    decide
  have isEnd : c = '\n' ∨ c = '\r' → units c = 1 := by
    rintro (rfl | rfl) <;> decide
  simp only [columnsOf, correction, beq_iff_eq, Bool.or_eq_true]
  change ((if c = '\t' then 4 else if c = '\n' ∨ c = '\r' then 1
    else if DisplayWidth.isControl c = true then 0
    else units c + DisplayWidth.ofChar c - 1 : Nat) : Int) = _
  split
  next tab => simp [isTab tab]
  next =>
    split
    next lineEnd => simp [isEnd lineEnd]
    next =>
      split
      next control => simp [isSmall control]
      next => omega

/-- The columns that a text moves the place to the right. -/
def columns (chars : List Char) : Nat := (chars.map columnsOf).sum

theorem columns_eq_sum (chars : List Char) :
    (columns chars : Int) = (chars.map fun c => (units c : Int) + correction c).sum := by
  induction chars with
  | nil => rfl
  | cons c chars induction =>
      rw [List.map_cons, List.sum_cons, ← induction, ← columnsOf_eq, columns, columns,
        List.map_cons, List.sum_cons, Int.natCast_add]

theorem columns_append (front back : List Char) :
    columns (front ++ back) = columns front + columns back := by
  rw [columns, List.map_append, List.sum_append, columns, columns]

theorem columns_of_forall_one {chars : List Char} (counted : ∀ c ∈ chars, columnsOf c = 1) :
    columns chars = chars.length := by
  rw [columns, List.map_congr_left counted]
  simp

theorem foldl_columnsOf (column : Nat) (chars : List Char) :
    chars.foldl (fun column c => column + columnsOf c) column = column + columns chars := by
  induction chars generalizing column with
  | nil => simp [columns]
  | cons c chars induction =>
      rw [List.foldl_cons, induction, ← List.singleton_append, columns_append]
      simp [columns, Nat.add_assoc]

theorem startingBefore_prefix {count further : Nat} (isBefore : count ≤ further)
    (chars : List Char) : startingBefore chars count <+: startingBefore chars further := by
  fun_induction startingBefore chars count generalizing further with
  | case1 => exact List.nil_prefix
  | case2 => exact List.nil_prefix
  | case3 c chars count induction =>
      obtain ⟨more, rfl⟩ : ∃ more, further = more + 1 := ⟨further - 1, by omega⟩
      rw [startingBefore]
      exact List.cons_prefix_cons.mpr ⟨rfl, induction (by omega)⟩

theorem startingBefore_append (front back : List Char) :
    startingBefore (front ++ back) (String.utf8Len front) = front := by
  induction front with
  | nil => cases back <;> simp [startingBefore]
  | cons c front induction =>
      have positive := c.utf8Size_pos
      obtain ⟨count, isCount⟩ : ∃ count, String.utf8Len (c :: front) = count + 1 := by
        apply Nat.exists_eq_succ_of_ne_zero
        rw [String.utf8Len_cons]
        omega
      have left : count + 1 - c.utf8Size = String.utf8Len front := by
        rw [← isCount, String.utf8Len_cons]
        omega
      rw [List.cons_append, isCount, startingBefore, left, induction]

/-- In one line, columns are counted in the order of the offsets. -/
theorem column_le_of_le {text : String} {first second : Nat} (isBefore : first ≤ second)
    (same : (ofOffset text first).line = (ofOffset text second).line) :
    (ofOffset text first).column ≤ (ofOffset text second).column := by
  have isReached := reached_eq same
  unfold reached at isReached
  unfold ofOffset
  simp only [isReached, foldl_columnsOf]
  obtain ⟨more, split⟩ := startingBefore_prefix (Nat.sub_le_sub_right isBefore _) _
  rw [← split, columns_append]
  omega

theorem column_pos (text : String) (offset : Nat) : 1 ≤ (ofOffset text offset).column := by
  unfold ofOffset
  simp only [foldl_columnsOf]
  omega

/-- What is shown of an offset: the columns of the text that stands before it in its line, and that
line up to the next line feed. -/
theorem Located.ofOffset_eq {text : String} {done before after : List Char}
    (located : Located text done before after) :
    (ofOffset text (String.utf8Len (done ++ before))).column = 1 + columns before ∧
      (ofOffset text (String.utf8Len (done ++ before))).sourceLine.toList =
        (before ++ after).takeWhile fun c => c != '\n' := by
  have isStart : (reached text (String.utf8Len (done ++ before))).getLast?.getD 0 =
      String.utf8Len done := by
    by_cases hasText : text = ""
    · subst hasText
      have isNothing : done = [] := by
        have isText := located.isText
        simp only [String.toList_empty, List.nil_eq, List.append_eq_nil_iff] at isText
        exact isText.1.1
      simp [isNothing, reached, lineStarts]
    · rw [located.getLast?_reached hasText, Option.getD_some]
  have isRest : dropBytes text.toList (String.utf8Len done) = some (before ++ after) := by
    rw [located.isText, List.append_assoc]
    exact dropBytes_eq_some_iff.mpr ⟨done, rfl, rfl⟩
  have isCount : String.utf8Len (done ++ before) - String.utf8Len done =
      String.utf8Len before := by
    rw [String.utf8Len_append]
    omega
  unfold reached at isStart
  unfold ofOffset
  simp only [isStart, isRest, isCount, Option.getD_some, startingBefore_append, foldl_columnsOf,
    String.toList_ofList, and_self]

end Columns

end StoreLint.Place
