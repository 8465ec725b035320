import StoreLint.Text.Template

/-!
# Filling templates

A template that is put together from texts without an opening brace and from
placeholders is filled piece by piece (`fill_pieces`): the texts stay, and a
placeholder becomes the value of the first entry with its name, whatever that value
looks like, or stays as it is written if there is no such entry.  Without entries any
template stays as it is.

The search for the end of a name needs no going back, since no character is both
white space and part of a word.
-/

namespace StoreLint.Template

/-- No white space is part of a word. -/
theorem not_isWordChar_of_isBlank {c : Char} (isBlank : Blank.isBlank c = true) :
    Letter.isWordChar c = false := by
  have listed : c.toNat ∈ List.range' 9 5 ++ List.range' 0x2000 11 ++
      [0x20, 0x85, 0xa0, 0x1680, 0x2028, 0x2029, 0x202f, 0x205f, 0x3000] := by
    simp only [Blank.isBlank, Bool.or_eq_true, Bool.and_eq_true, decide_eq_true_eq,
      beq_iff_eq] at isBlank
    simp only [List.mem_append, List.mem_range'_1, List.mem_cons, List.not_mem_nil, or_false]
    omega
  have apart : ∀ code ∈ List.range' 9 5 ++ List.range' 0x2000 11 ++
      [0x20, 0x85, 0xa0, 0x1680, 0x2028, 0x2029, 0x202f, 0x205f, 0x3000],
      Letter.isWordChar (Char.ofNat code) = false := by
    decide +kernel
  simpa using apart c.toNat listed

theorem not_isBlank_of_isWordChar {c : Char} (isWord : Letter.isWordChar c = true) :
    Blank.isBlank c = false := by
  cases isBlank : Blank.isBlank c with
  | false => rfl
  | true => simp [not_isWordChar_of_isBlank isBlank] at isWord

/-- A part of a template. -/
inductive Piece where
  /-- A text without an opening brace. -/
  | literal (text : List Char) (plain : '\x7b' ∉ text)
  /-- A word between two pairs of braces, with any white space around it. -/
  | placeholder (before name after : List Char) (blank_before : ∀ c ∈ before, Blank.isBlank c)
      (name_ne_nil : name ≠ []) (word_name : ∀ c ∈ name, Letter.isWordChar c)
      (blank_after : ∀ c ∈ after, Blank.isBlank c)

namespace Piece

def text : Piece → List Char
  | .literal text _ => text
  | .placeholder before name after _ _ _ _ =>
      ['\x7b', '\x7b'] ++ before ++ name ++ after ++ ['\x7d', '\x7d']

/-- What stands for the piece in a filled template. -/
def filled (values : Values) : Piece → List Char
  | .literal text _ => text
  | .placeholder before name after blank_before name_ne_nil word_name blank_after =>
      match values.lookup (String.ofList name) with
      | some value => value.toList
      | none => (placeholder before name after blank_before name_ne_nil word_name blank_after).text

end Piece

theorem value?_eq_lookup (values : Values) (name : String) :
    value? values name = values.lookup name := by
  induction values with
  | nil => rfl
  | cons entry values induction =>
      obtain ⟨key, value⟩ := entry
      rw [value?, List.find?_cons, List.lookup_cons, Bool.beq_comm]
      cases name == key with
      | true => rfl
      | false => exact induction

/-- A placeholder is found whole, whatever follows it. -/
theorem placeholder?_append {before name after : List Char}
    (blank_before : ∀ c ∈ before, Blank.isBlank c) (name_ne_nil : name ≠ [])
    (word_name : ∀ c ∈ name, Letter.isWordChar c) (blank_after : ∀ c ∈ after, Blank.isBlank c)
    (rest : List Char) :
    placeholder? ('\x7b' :: '\x7b' :: (before ++ (name ++ (after ++ '\x7d' :: '\x7d' :: rest)))) =
      some ⟨name, before.length + name.length + after.length + 4⟩ := by
  obtain ⟨first, others, rfl⟩ := List.exists_cons_of_ne_nil name_ne_nil
  -- The name ends before the white space behind it, or before the brace if there is none.
  obtain ⟨stop, behind, tail_eq, notWord⟩ : ∃ stop behind,
      after ++ '\x7d' :: '\x7d' :: rest = stop :: behind ∧ Letter.isWordChar stop = false := by
    cases after with
    | nil => exact ⟨_, _, rfl, by decide⟩
    | cons space spaces =>
        exact ⟨_, _, rfl, not_isWordChar_of_isBlank (blank_after space (by simp))⟩
  have firstBlank : Blank.isBlank first = false :=
    not_isBlank_of_isWordChar (word_name first (by simp))
  have word : (before ++ (first :: others ++ stop :: behind)).dropWhile Blank.isBlank =
      first :: others ++ stop :: behind := by
    rw [List.dropWhile_append_of_pos blank_before, List.cons_append,
      List.dropWhile_cons_of_neg (by simp [firstBlank])]
  have name_eq : (first :: others ++ stop :: behind).takeWhile Letter.isWordChar =
      first :: others := by
    rw [List.takeWhile_append_of_pos word_name, List.takeWhile_cons_of_neg (by simp [notWord]),
      List.append_nil]
  have closing : ((first :: others ++ stop :: behind).dropWhile Letter.isWordChar).dropWhile
      Blank.isBlank = '\x7d' :: '\x7d' :: rest := by
    rw [List.dropWhile_append_of_pos word_name, List.dropWhile_cons_of_neg (by simp [notWord]),
      ← tail_eq, List.dropWhile_append_of_pos blank_after]
    rfl
  have length_eq : ('\x7b' :: '\x7b' :: (before ++ (first :: others ++ stop :: behind))).length -
      rest.length = before.length + (first :: others).length + after.length + 4 := by
    have sizes := congrArg List.length tail_eq
    simp only [List.length_append, List.length_cons] at sizes ⊢
    omega
  rw [tail_eq, placeholder?, word, name_eq, closing]
  simp only [length_eq]

theorem placeholder?_of_ne {c : Char} (different : c ≠ '\x7b') (chars : List Char) :
    placeholder? (c :: chars) = none := by
  rw [placeholder?]
  rintro _ ⟨⟩
  exact different rfl

/-- A placeholder has at least one character. -/
theorem length_pos_of_placeholder? {chars : List Char} {found : Placeholder}
    (isFound : placeholder? chars = some found) : 0 < found.length := by
  unfold placeholder? at isFound
  split at isFound
  next inner =>
    -- What is behind the closing braces is a part of what is behind the opening ones.
    have shorter : ∀ rest, ((((inner.dropWhile Blank.isBlank).dropWhile Letter.isWordChar).dropWhile
        Blank.isBlank) = '\x7d' :: '\x7d' :: rest) → rest.length < inner.length := by
      intro rest closing
      have suffix := ((List.dropWhile_suffix Blank.isBlank).trans
        (List.dropWhile_suffix Letter.isWordChar)).trans
        (List.dropWhile_suffix (l := inner) Blank.isBlank)
      rw [closing] at suffix
      have lengths := suffix.length_le
      simp only [List.length_cons] at lengths
      omega
    simp only at isFound
    split at isFound
    next rest _ closing =>
      have fewer := shorter rest closing
      cases isFound
      simp only [List.length_cons]
      omega
    next => simp at isFound
  next => simp at isFound

/-- What is skipped does not matter. -/
theorem fillFrom_eq_drop (values : Values) (skipped : Nat) (chars : List Char) :
    fillFrom values skipped chars = fillFrom values 0 (chars.drop skipped) := by
  induction chars generalizing skipped with
  | nil => simp [fillFrom]
  | cons c chars induction =>
      cases skipped with
      | zero => rfl
      | succ skipped => rw [fillFrom, induction, List.drop_succ_cons]

/-- A placeholder is replaced by its value, or copied, and filling goes on behind it. -/
theorem fillFrom_of_placeholder? (values : Values) {chars : List Char} {found : Placeholder}
    (isFound : placeholder? chars = some found) :
    fillFrom values 0 chars =
      ((values.lookup (String.ofList found.name)).map String.toList).getD
          (chars.take found.length) ++
        fillFrom values 0 (chars.drop found.length) := by
  have positive := length_pos_of_placeholder? isFound
  obtain ⟨length, length_eq⟩ := Nat.exists_eq_succ_of_ne_zero (Nat.ne_of_gt positive)
  cases chars with
  | nil => simp [placeholder?] at isFound
  | cons c chars =>
      rw [fillFrom, isFound]
      simp only [value?_eq_lookup, length_eq, Nat.succ_sub_one, List.drop_succ_cons]
      rw [fillFrom_eq_drop]
      cases values.lookup (String.ofList found.name) <;> rfl

theorem fillFrom_literal (values : Values) {text : List Char} (plain : '\x7b' ∉ text)
    (rest : List Char) :
    fillFrom values 0 (text ++ rest) = text ++ fillFrom values 0 rest := by
  induction text with
  | nil => rfl
  | cons c text induction =>
      obtain ⟨different, plain⟩ := List.ne_and_not_mem_of_not_mem_cons plain
      rw [List.cons_append, fillFrom, placeholder?_of_ne different.symm, List.cons_append]
      simp only [induction plain]

theorem fillFrom_piece (values : Values) (piece : Piece) (rest : List Char) :
    fillFrom values 0 (piece.text ++ rest) = piece.filled values ++ fillFrom values 0 rest := by
  cases piece with
  | literal text plain => exact fillFrom_literal values plain rest
  | placeholder before name after blank_before name_ne_nil word_name blank_after =>
      let piece : Piece :=
        .placeholder before name after blank_before name_ne_nil word_name blank_after
      have length_eq : piece.text.length =
          before.length + name.length + after.length + 4 := by
        simp [piece, Piece.text]
        omega
      have isFound : placeholder? (piece.text ++ rest) = some ⟨name, piece.text.length⟩ := by
        rw [length_eq, ← placeholder?_append blank_before name_ne_nil word_name blank_after rest]
        simp [piece, Piece.text]
      rw [fillFrom_of_placeholder? values isFound, List.take_left, List.drop_left, Piece.filled]
      cases values.lookup (String.ofList name) <;> rfl

theorem fillFrom_pieces (values : Values) (pieces : List Piece) :
    fillFrom values 0 (pieces.flatMap Piece.text) = pieces.flatMap (Piece.filled values) := by
  induction pieces with
  | nil => rfl
  | cons piece pieces induction =>
      rw [List.flatMap_cons, List.flatMap_cons, fillFrom_piece, induction]

/-- Without entries everything that is not skipped is copied. -/
theorem fillFrom_nil (skipped : Nat) (chars : List Char) :
    fillFrom [] skipped chars = chars.drop skipped := by
  fun_induction fillFrom [] skipped chars with
  | case1 skipped => exact List.drop_nil.symm
  | case2 c chars skipped induction => exact induction
  | case3 c chars notFound induction => exact congrArg (c :: ·) induction
  | case4 c chars found isFound text induction =>
      have positive := length_pos_of_placeholder? isFound
      obtain ⟨length, length_eq⟩ := Nat.exists_eq_succ_of_ne_zero (Nat.ne_of_gt positive)
      have text_eq : text = (c :: chars).take found.length := rfl
      rw [induction, text_eq, length_eq, Nat.succ_sub_one, List.take_succ_cons,
        List.cons_append, List.take_append_drop, List.drop_zero]

/-- A template is filled piece by piece: texts without an opening brace stay, and each placeholder
becomes the value of the first entry with its name as it is, or stays if there is none.  Without
entries every template stays. -/
theorem fill_pieces :
    (∀ (values : Values) (pieces : List Piece),
      fill (String.ofList (pieces.flatMap Piece.text)) values =
        String.ofList (pieces.flatMap (Piece.filled values))) ∧
    ∀ template : String, fill template [] = template := by
  constructor
  · intro values pieces
    rw [fill, String.toList_ofList, fillFrom_pieces]
  · intro template
    rw [fill, fillFrom_nil, List.drop_zero, String.ofList_toList]

/-- The first value counts and is not filled again, and an open placeholder stays. -/
example : fill "\x7b\x7b a \x7d\x7d \x7b\x7b a" [("a", "\x7b\x7ba\x7d\x7d"), ("a", "b")] =
    "\x7b\x7ba\x7d\x7d \x7b\x7b a" := by
  decide +kernel

end StoreLint.Template
