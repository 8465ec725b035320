import Mathlib.Data.List.TakeWhile
import Mathlib.Data.String.Basic
import StoreLint.Source.LeadingComments

/-!
# The text between two positions

Comments are told to stand in front of an entry by the text in the gaps.  `Between`
says which text stands between two positions: there is none if a position is outside
of the file or inside a character.  `ModifierText` says when a gap holds nothing but
white space and modifiers.  Both describe what the executable functions compute.
-/

namespace StoreLint

/-- The characters of the text from the first position up to the second. -/
def SourceText.Between (source : SourceText) (lo hi : Nat) (gap : List Char) : Prop :=
  ∃ front back, source.text.toList = front ++ gap ++ back ∧
    lo = source.start + String.utf8Len front ∧ hi = lo + String.utf8Len gap

theorem dropBytes_append (pad chars : List Char) (count : Nat) :
    dropBytes (pad ++ chars) (String.utf8Len pad + count) = dropBytes chars count := by
  induction pad with
  | nil => simp
  | cons c pad induction =>
      have positive := c.utf8Size_pos
      obtain ⟨rest, isRest⟩ : ∃ rest, String.utf8Len (c :: pad) + count = rest + 1 := by
        apply Nat.exists_eq_succ_of_ne_zero
        rw [String.utf8Len_cons]
        omega
      have fits : c.utf8Size ≤ rest + 1 := by
        rw [← isRest, String.utf8Len_cons]
        omega
      have left : rest + 1 - c.utf8Size = String.utf8Len pad + count := by
        rw [← isRest, String.utf8Len_cons]
        omega
      rw [List.cons_append, isRest, dropBytes, if_pos fits, left, induction]

theorem dropBytes_eq_some_iff {chars rest : List Char} {count : Nat} :
    dropBytes chars count = some rest ↔
      ∃ front, chars = front ++ rest ∧ String.utf8Len front = count := by
  constructor
  · intro drops
    fun_induction dropBytes chars count with
    | case1 chars =>
        cases drops
        exact ⟨[], rfl, String.utf8Len_nil⟩
    | case2 => cases drops
    | case3 c chars count fits induction =>
        obtain ⟨front, rfl, size⟩ := induction drops
        refine ⟨c :: front, rfl, ?_⟩
        rw [String.utf8Len_cons]
        omega
    | case4 => cases drops
  · rintro ⟨front, rfl, rfl⟩
    have all := dropBytes_append front rest 0
    rwa [Nat.add_zero, dropBytes] at all

theorem takeBytes_eq_some_iff {chars taken : List Char} {count : Nat} :
    takeBytes chars count = some taken ↔
      ∃ back, chars = taken ++ back ∧ String.utf8Len taken = count := by
  constructor
  · intro takes
    fun_induction takeBytes chars count generalizing taken with
    | case1 chars =>
        cases takes
        exact ⟨chars, rfl, String.utf8Len_nil⟩
    | case2 => cases takes
    | case3 c chars count fits induction =>
        obtain ⟨further, takesFurther, rfl⟩ := Option.map_eq_some_iff.mp takes
        obtain ⟨back, rfl, size⟩ := induction takesFurther
        refine ⟨back, rfl, ?_⟩
        rw [String.utf8Len_cons]
        omega
    | case4 => cases takes
  · rintro ⟨back, rfl, rfl⟩
    induction taken with
    | nil => simp [takeBytes]
    | cons c taken induction =>
        have positive := c.utf8Size_pos
        obtain ⟨count, isCount⟩ : ∃ count, String.utf8Len (c :: taken) = count + 1 := by
          apply Nat.exists_eq_succ_of_ne_zero
          rw [String.utf8Len_cons]
          omega
        have left : count + 1 - c.utf8Size = String.utf8Len taken := by
          rw [← isCount, String.utf8Len_cons]
          omega
        have fits : c.utf8Size ≤ count + 1 := by
          rw [← isCount, String.utf8Len_cons]
          omega
        rw [List.cons_append, isCount, takeBytes, if_pos fits, left, induction]
        rfl

/-- What is cut out by positions is the text between them. -/
theorem SourceText.slice_eq_some_iff {source : SourceText} {lo hi : Nat} {gap : List Char} :
    source.slice lo hi = some gap ↔ source.Between lo hi gap := by
  unfold slice
  split
  next outside =>
    constructor
    · intro cut
      cases cut
    · rintro ⟨front, back, _, isLo, isHi⟩
      simp only [Bool.or_eq_true, decide_eq_true_eq] at outside
      omega
  next inside =>
    simp only [Bool.or_eq_true, decide_eq_true_eq, not_or, Nat.not_lt] at inside
    rw [Option.bind_eq_bind, Option.bind_eq_some_iff]
    constructor
    · rintro ⟨rest, drops, takes⟩
      obtain ⟨front, isText, frontSize⟩ := dropBytes_eq_some_iff.mp drops
      obtain ⟨back, rfl, gapSize⟩ := takeBytes_eq_some_iff.mp takes
      refine ⟨front, back, ?_, ?_, ?_⟩
      · rw [isText, List.append_assoc]
      · omega
      · omega
    · rintro ⟨front, back, isText, isLo, isHi⟩
      refine ⟨gap ++ back, dropBytes_eq_some_iff.mpr ⟨front, ?_, ?_⟩,
        takeBytes_eq_some_iff.mpr ⟨back, rfl, ?_⟩⟩
      · rw [isText, List.append_assoc]
      · omega
      · omega

namespace Blank

theorem wordsFrom_append {letters : List Char} (areLetters : ∀ c ∈ letters, isBlank c = false)
    (word rest : List Char) :
    wordsFrom word (letters ++ rest) = wordsFrom (letters.reverse ++ word) rest := by
  induction letters generalizing word with
  | nil => rfl
  | cons c letters induction =>
      obtain ⟨isLetter, others⟩ := List.forall_mem_cons.mp areLetters
      rw [List.cons_append, wordsFrom, if_neg (by simp [isLetter]), induction others]
      simp

theorem words_cons_blank {c : Char} (blank : isBlank c = true) (rest : List Char) :
    words (c :: rest) = words rest := by
  rw [words, wordsFrom, if_pos blank]
  rfl

/-- A word that white space or the end follows is the first word. -/
theorem words_append {word rest : List Char} (nonempty : word ≠ [])
    (areLetters : ∀ c ∈ word, isBlank c = false)
    (ends : ∀ c ∈ rest.head?, isBlank c = true) : words (word ++ rest) = word :: words rest := by
  have notEmpty : word.reverse.isEmpty = false := by simpa using nonempty
  rw [words, wordsFrom_append areLetters, List.append_nil]
  cases rest with
  | nil => simp [wordsFrom, notEmpty, words]
  | cons c rest =>
      have blank : isBlank c = true := ends c rfl
      rw [words_cons_blank blank, wordsFrom, if_pos blank, notEmpty]
      simp [words]

end Blank

/-- The text consists of white space and of modifiers that white space separates. -/
inductive ModifierText : List Char → Prop where
  | nil : ModifierText []
  | blank {c : Char} {rest : List Char} (isBlank : Blank.isBlank c = true)
      (further : ModifierText rest) : ModifierText (c :: rest)
  | modifier {word rest : List Char} (isModifier : word ∈ modifierWords)
      (ends : ∀ c ∈ rest.head?, Blank.isBlank c = true) (further : ModifierText rest) :
      ModifierText (word ++ rest)

theorem modifierWords_letters : ∀ word ∈ modifierWords,
    word ≠ [] ∧ ∀ c ∈ word, Blank.isBlank c = false := by
  have letters : (modifierWords.all fun word =>
      !word.isEmpty && word.all fun c => !Blank.isBlank c) = true := by
    decide
  simpa using letters

theorem isModifierGap_cons_blank {c : Char} (isBlank : Blank.isBlank c = true)
    (rest : List Char) : isModifierGap (c :: rest) = isModifierGap rest := by
  rw [isModifierGap, Blank.words_cons_blank isBlank, isModifierGap]

theorem modifierText_of_isModifierGap {gap : List Char} (isGap : isModifierGap gap = true) :
    ModifierText gap := by
  match gap with
  | [] => exact .nil
  | c :: chars =>
      by_cases isBlank : Blank.isBlank c = true
      · rw [isModifierGap_cons_blank isBlank] at isGap
        exact .blank isBlank (modifierText_of_isModifierGap isGap)
      · -- The first word reaches up to the next white space.
        let isLetter (c : Char) : Bool := !Blank.isBlank c
        let word := (c :: chars).takeWhile isLetter
        let rest := (c :: chars).dropWhile isLetter
        have split : word ++ rest = c :: chars := List.takeWhile_append_dropWhile
        have starts : word = c :: chars.takeWhile isLetter := by
          simp [word, isLetter, isBlank]
        have nonempty : word ≠ [] := by simp [starts]
        have areLetters : ∀ letter ∈ word, Blank.isBlank letter = false := by
          intro letter isIn
          simpa [isLetter] using List.mem_takeWhile_imp isIn
        have ends : ∀ next ∈ rest.head?, Blank.isBlank next = true := by
          intro next isNext
          have stops := List.head?_dropWhile_not isLetter (c :: chars)
          rw [Option.mem_def.mp isNext] at stops
          simpa [isLetter] using stops
        rw [← split, isModifierGap, Blank.words_append nonempty areLetters ends, List.all_cons,
          Bool.and_eq_true] at isGap
        have shorter : rest.length < (c :: chars).length := by
          rw [← split, List.length_append]
          exact Nat.lt_add_of_pos_left (List.length_pos_iff.mpr nonempty)
        rw [← split]
        exact .modifier (by simpa using isGap.1) ends (modifierText_of_isModifierGap isGap.2)
termination_by gap.length
decreasing_by
  · exact Nat.lt_succ_self _
  · exact shorter

/-- The check of a gap accepts white space and modifiers, and nothing else. -/
theorem isModifierGap_iff {gap : List Char} : isModifierGap gap = true ↔ ModifierText gap := by
  constructor
  · exact modifierText_of_isModifierGap
  · intro isText
    induction isText with
    | nil => rfl
    | blank isBlank _ induction => rwa [isModifierGap_cons_blank isBlank]
    | modifier isModifier ends _ induction =>
        obtain ⟨nonempty, areLetters⟩ := modifierWords_letters _ isModifier
        rw [isModifierGap, Blank.words_append nonempty areLetters ends, List.all_cons,
          Bool.and_eq_true]
        exact ⟨by simpa using isModifier, induction⟩

end StoreLint
