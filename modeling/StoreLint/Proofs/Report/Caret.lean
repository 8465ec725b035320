import StoreLint.Proofs.Source.Lines
import StoreLint.Report.Text

/-!
# The caret below a place

The caret of an issue is put behind the width of as many characters of the source line
as the place has columns in front of it.  These are the characters before the position
only if each of them counts one column.  A tab, a wide character or a character outside
of the basic plane counts more, so that the caret stands too far to the right, and a
control character or a character without width counts none.

Where no characters join, the caret is right just if those that are left out, or taken
in addition, have no width.
-/

namespace StoreLint

theorem sum_take_eq_iff_of_le {values : List Nat} {count further : Nat} (isLess : count ≤ further) :
    (values.take count).sum = (values.take further).sum ↔
      ∀ value ∈ (values.take further).drop count, value = 0 := by
  have split : values.take further = values.take count ++ (values.take further).drop count := by
    have isFront : (values.take further).take count = values.take count := by
      rw [List.take_take, Nat.min_eq_left isLess]
    rw [← isFront, List.take_append_drop]
  have added : (values.take further).sum =
      (values.take count).sum + ((values.take further).drop count).sum := by
    rw [← List.sum_append, ← split]
  rw [added, ← List.sum_eq_zero_iff_forall_eq_nat]
  omega

namespace LineWidth

/-- Whether a character does not join with its neighbours, if they do not join either. -/
def standsAlone (c : Char) : Bool :=
  c != '\n' && (c.toNat ≤ 0xa0 ||
    (c.toNat != 0xfe0f && c.toNat != 0xfe0e && (alone c).2 == .plain))

/-- The columns of a character that joins with nothing. -/
def ownWidth (c : Char) : Nat := if c.toNat ≤ 0xa0 then 1 else DisplayWidth.ofChar c

theorem step_plain {c : Char} (isAlone : standsAlone c = true) :
    step c .plain = ((ownWidth c : Int), .plain) := by
  simp only [standsAlone, Bool.and_eq_true, bne_iff_ne, ne_eq, Bool.or_eq_true, decide_eq_true_eq,
    beq_iff_eq] at isAlone
  obtain ⟨notFeed, isSmall | ⟨⟨notEmoji, notText⟩, isPlain⟩⟩ := isAlone
  · simp [step, ownWidth, isSmall, notFeed]
  · by_cases isSmall : c.toNat ≤ 0xa0
    · simp [step, ownWidth, isSmall, notFeed]
    · have isJoining : joining c .plain = alone c := by
        simp [joining, notEmoji, notText]
      have isAlone : alone c = ((ownWidth c : Int), .plain) := by
        rw [ownWidth, if_neg isSmall, ← isPlain]
        rfl
      simp [step, isSmall, isJoining, isAlone]

/-- The characters of a text in which none of them joins add up. -/
theorem ofText_of_standsAlone {chars : List Char}
    (areAlone : ∀ c ∈ chars, standsAlone c = true) :
    ofText chars = (chars.map ownWidth).sum := by
  have scanned : scan chars = ((((chars.map ownWidth).sum : Nat) : Int), .plain) := by
    induction chars with
    | nil => rfl
    | cons c chars induction =>
        obtain ⟨isAlone, others⟩ := List.forall_mem_cons.mp areAlone
        simp [scan, induction others, step_plain isAlone]
  rw [ofText, scanned, Int.toNat_natCast]

theorem ofText_take_eq_iff {line : List Char} (areAlone : ∀ c ∈ line, standsAlone c = true)
    {first second : Nat} :
    ofText (line.take first) = ofText (line.take second) ↔
      ∀ c ∈ (line.take (max first second)).drop (min first second), ownWidth c = 0 := by
  have isSum (count : Nat) : ofText (line.take count) = ((line.map ownWidth).take count).sum := by
    rw [ofText_of_standsAlone fun c member => areAlone c (List.mem_of_mem_take member),
      List.map_take]
  have inBetween (count further : Nat) :
      (∀ value ∈ ((line.map ownWidth).take further).drop count, value = 0) ↔
        ∀ c ∈ (line.take further).drop count, ownWidth c = 0 := by
    rw [← List.map_take, ← List.map_drop, List.forall_mem_map]
  rw [isSum, isSum]
  rcases Nat.le_total first second with isLess | isLess
  · rw [Nat.max_eq_right isLess, Nat.min_eq_left isLess, sum_take_eq_iff_of_le isLess, inBetween]
  · rw [Nat.max_eq_left isLess, Nat.min_eq_right isLess, eq_comm, sum_take_eq_iff_of_le isLess,
      inBetween]

end LineWidth

namespace Report

/-- The caret stands below the character of the source line that has the index: the columns in front
of it are those of the text before that character. -/
def CaretBelow (place : Place) (index : Nat) : Prop :=
  caretPadding place = LineWidth.ofText (place.sourceLine.toList.take index)

/-- The caret of a place stands below the position of the place just if the text that its columns
are counted along is as wide as the text before the position.  It does if each character before the
position counts one column.  In a line without joining characters it does just if those have no
width that are in one of the two texts only. -/
theorem caretBelow_iff {text : String} {front after : List Char}
    (isText : text.toList = front ++ after) {place : Place}
    (isPlace : place = Place.ofOffset text (String.utf8Len front)) :
    ∃ done before, front = done ++ before ∧ Place.Located text done before after ∧
      (after ≠ [] → place.sourceLine.toList.take before.length = before) ∧
      (CaretBelow place before.length ↔
        LineWidth.ofText (place.sourceLine.toList.take (Place.columns before)) =
          LineWidth.ofText (place.sourceLine.toList.take before.length)) ∧
      ((∀ c ∈ before, Place.columnsOf c = 1) → CaretBelow place before.length) ∧
      ((∀ c ∈ place.sourceLine.toList, LineWidth.standsAlone c = true) →
        (CaretBelow place before.length ↔
          ∀ c ∈ (place.sourceLine.toList.take (max (Place.columns before) before.length)).drop
            (min (Place.columns before) before.length), LineWidth.ownWidth c = 0)) := by
  obtain ⟨done, before, rfl, located⟩ := Place.exists_located isText
  obtain ⟨isColumn, isLine⟩ := located.ofOffset_eq
  rw [← isPlace] at isColumn isLine
  have isPadding : CaretBelow place before.length ↔
      LineWidth.ofText (place.sourceLine.toList.take (Place.columns before)) =
        LineWidth.ofText (place.sourceLine.toList.take before.length) := by
    rw [CaretBelow, caretPadding, isColumn, Nat.add_sub_cancel_left]
  refine ⟨done, before, rfl, located, ?_, isPadding, ?_, ?_⟩
  · intro further
    have noFeed := located.feed_not_mem further
    have areKept : ∀ c ∈ before, (c != '\n') = true := by
      intro c member
      rw [bne_iff_ne]
      rintro rfl
      exact noFeed member
    rw [isLine, List.takeWhile_append_of_pos areKept, List.take_left]
  · intro counted
    rw [isPadding, Place.columns_of_forall_one counted]
  · intro areAlone
    rw [isPadding]
    exact LineWidth.ofText_take_eq_iff areAlone

/-- The line `x = '你好' + commit()`. -/
def wideCall : String := "x = '你好' + commit()"

/-- The text of `wideCall` in front of the call. -/
def beforeWideCall : List Char := "x = '你好' + ".toList

/-- The two wide characters count two columns each, so the caret is put behind two characters more
than there are before the call, which have a width. -/
theorem not_caretBelow_wideCall :
    wideCall.toList = beforeWideCall ++ "commit()".toList ∧
      Place.ofOffset wideCall (String.utf8Len beforeWideCall) = ⟨1, 14, wideCall⟩ ∧
      caretPadding ⟨1, 14, wideCall⟩ = 15 ∧ LineWidth.ofText beforeWideCall = 13 ∧
      (∀ c ∈ wideCall.toList, LineWidth.standsAlone c = true) ∧
      ¬CaretBelow ⟨1, 14, wideCall⟩ beforeWideCall.length := by
  have isText : wideCall.toList = beforeWideCall ++ "commit()".toList := by decide
  have isPlace : Place.ofOffset wideCall (String.utf8Len beforeWideCall) = ⟨1, 14, wideCall⟩ := by
    decide +kernel
  have areAlone : ∀ c ∈ wideCall.toList, LineWidth.standsAlone c = true :=
    List.all_eq_true.mp (by decide +kernel)
  refine ⟨isText, isPlace, by decide +kernel, by decide +kernel, areAlone, ?_⟩
  obtain ⟨done, before, isFront, located, _, _, _, isBelow⟩ := caretBelow_iff isText isPlace.symm
  have noLineEnd : '\n' ∉ beforeWideCall ∧ '\r' ∉ beforeWideCall := by decide
  rw [isFront, List.mem_append, List.mem_append] at noLineEnd
  rcases located.starts with rfl | ⟨_, endsFeed | ⟨endsReturn, _⟩⟩
  · rw [List.nil_append] at isFront
    rw [← isFront] at isBelow
    rw [isBelow areAlone]
    intro noWidth
    exact absurd (noWidth 'c' (by decide +kernel)) (by decide)
  · exact absurd (.inl (List.mem_of_getLast? endsFeed)) noLineEnd.1
  · exact absurd (.inl (List.mem_of_getLast? endsReturn)) noLineEnd.2

end Report

end StoreLint
