import Mathlib.Data.List.Basic
import StoreLint.Glob.Pattern

/-!
# Patterns that end with a star

A star stands for any number of characters, separators among them.  So a text that fits a
pattern with a star at its end can be continued in any way and still fits.
-/

namespace StoreLint.Glob

/-- Whether the token takes as much as there is. -/
def Token.isOpen : Token → Bool
  | .anySequence | .anyComponents => true
  | _ => false

/-- The last token takes as much as there is. -/
def EndsOpen (tokens : List Token) : Prop :=
  ∃ front last, tokens = front ++ [last] ∧ last.isOpen = true

theorem hasWildcard_eq (text : String) :
    hasWildcard text = (decide ('*' ∈ text.toList) || decide ('?' ∈ text.toList)) := by
  rw [hasWildcard, String.contains_char_eq, String.contains_char_eq]

section Matching

variable {test : List Char → Bool} {chars : List Char}

theorem anySuffix_of_nil (isEnd : test [] = true) (chars : List Char) :
    anySuffix test chars = true := by
  induction chars with
  | nil => exact isEnd
  | cons c chars induction => simp [anySuffix, induction]

theorem anyComponentSuffix_of_nil (isEnd : test [] = true) (chars : List Char) :
    anyComponentSuffix test chars = true := by
  induction chars with
  | nil => exact isEnd
  | cons c chars induction => simp [anyComponentSuffix, induction]

theorem anySuffix_of_self (isText : test chars = true) : anySuffix test chars = true := by
  cases chars with
  | nil => exact isText
  | cons c chars => simp [anySuffix, isText]

theorem anySuffix_append {more : List Char}
    (keeps : ∀ chars, test chars = true → test (chars ++ more) = true)
    (isSuffix : anySuffix test chars = true) : anySuffix test (chars ++ more) = true := by
  induction chars with
  | nil => exact anySuffix_of_self (keeps [] isSuffix)
  | cons c chars induction =>
      rw [anySuffix, Bool.or_eq_true] at isSuffix
      rw [List.cons_append, anySuffix, Bool.or_eq_true]
      exact isSuffix.imp (keeps (c :: chars)) induction

theorem anyComponentSuffix_append {more : List Char}
    (keeps : ∀ chars, test chars = true → test (chars ++ more) = true)
    (isSuffix : anyComponentSuffix test chars = true) :
    anyComponentSuffix test (chars ++ more) = true := by
  induction chars with
  | nil =>
      rw [anyComponentSuffix] at isSuffix
      exact anyComponentSuffix_of_nil isSuffix more
  | cons c chars induction =>
      rw [anyComponentSuffix, Bool.or_eq_true, Bool.and_eq_true] at isSuffix
      rw [List.cons_append, anyComponentSuffix, Bool.or_eq_true, Bool.and_eq_true]
      exact isSuffix.imp (And.imp_right (keeps chars)) induction

theorem matchTokens_of_isOpen {token : Token} (isOpen : token.isOpen = true) (chars : List Char) :
    matchTokens [token] chars = true := by
  cases token with
  | anySequence => exact anySuffix_of_nil rfl chars
  | anyComponents => simp [matchTokens, anyComponentSuffix_of_nil]
  | _ => cases isOpen

/-- A text that fits still fits with more at its end. -/
theorem EndsOpen.matchTokens_append {tokens : List Token} (isOpen : EndsOpen tokens)
    (fits : matchTokens tokens chars = true) (more : List Char) :
    matchTokens tokens (chars ++ more) = true := by
  obtain ⟨front, last, rfl, isOpen⟩ := isOpen
  induction front generalizing chars with
  | nil => exact matchTokens_of_isOpen isOpen _
  | cons token front induction =>
      cases token with
      | anySequence => exact anySuffix_append (fun chars => induction) fits
      | anyComponents =>
          rw [List.cons_append, matchTokens, Bool.or_eq_true] at fits ⊢
          exact fits.imp induction (anyComponentSuffix_append fun chars => induction)
      | char _ | anyChar | within _ | except _ =>
          cases chars with
          | nil => cases fits
          | cons c chars =>
              simp only [List.cons_append, matchTokens, Bool.and_eq_true] at fits ⊢
              exact ⟨fits.1, induction fits.2⟩

end Matching

section Reading

theorem exists_after_takeWhile {mark : Char} {chars : List Char}
    (stops : (chars.takeWhile fun c => c != mark).length < chars.length) :
    ∃ after, chars = (chars.takeWhile fun c => c != mark) ++ mark :: after := by
  induction chars with
  | nil => cases stops
  | cons c chars induction =>
      by_cases isMark : c = mark
      · exact ⟨chars, by simp [isMark]⟩
      · rw [List.takeWhile_cons_of_pos (by simpa using isMark)] at stops ⊢
        obtain ⟨after, isText⟩ := induction (Nat.lt_of_succ_lt_succ stops)
        exact ⟨after, congrArg (c :: ·) isText⟩

/-- A bracket takes all characters up to its end. -/
theorem bracket?_closes {chars : List Char} {token : Token} {taken : Nat}
    (isBracket : bracket? chars = some (token, taken)) :
    ∃ inside after, chars = inside ++ ']' :: after ∧ taken = inside.length + 1 := by
  revert isBracket
  fun_cases bracket? chars with
  | case1 first rest more closes =>
      rintro ⟨⟩
      obtain ⟨after, isRest⟩ := exists_after_takeWhile closes
      exact ⟨'!' :: first :: more, after, congrArg ('!' :: first :: ·) isRest, rfl⟩
  | case4 first rest _ _ more closes =>
      rintro ⟨⟩
      obtain ⟨after, isRest⟩ := exists_after_takeWhile closes
      exact ⟨first :: more, after, congrArg (first :: ·) isRest, rfl⟩
  | case2 | case3 | case5 | case6 => rintro ⟨⟩

theorem endsOpen_reverse_cons {token : Token} (isOpen : token.isOpen = true) (read : List Token) :
    EndsOpen (token :: read).reverse :=
  ⟨read.reverse, token, List.reverse_cons, isOpen⟩

theorem endsOpen_pushComponents (read : List Token) : EndsOpen (pushComponents read).reverse := by
  fun_cases pushComponents read with
  | case1 token tokens => exact endsOpen_reverse_cons rfl _
  | case2 => exact endsOpen_reverse_cons rfl _

/-- The last star is still to be read, or it has been read last. -/
def StarAhead (read : List Token) (ahead : List Char) : Prop :=
  ahead.getLast? = some '*' ∨ ahead = [] ∧ EndsOpen read.reverse

namespace StarAhead

variable {read : List Token}

theorem skip (front : List Char) {c : Char} {after : List Char}
    (isAhead : StarAhead read (front ++ c :: after)) (isOther : c ≠ '*') (next : List Token) :
    StarAhead next after := by
  cases isAhead with
  | inl isLast =>
      rw [List.getLast?_append, List.getLast?_cons] at isLast
      cases isEnd : after.getLast? with
      | none => simp [isEnd, isOther] at isLast
      | some last => exact .inl (isEnd.trans (by simpa [isEnd] using isLast))
  | inr isEnd => simp at isEnd

theorem star {after : List Char} (isAhead : StarAhead read ('*' :: after)) {next : List Token}
    (isOpen : EndsOpen next.reverse) : StarAhead next after := by
  cases after with
  | nil => exact .inr ⟨rfl, isOpen⟩
  | cons c after =>
      cases isAhead with
      | inl isLast => exact .inl (by simpa using isLast)
      | inr isEnd => simp at isEnd

end StarAhead

/-- A pattern whose text ends with a star ends with an open token. -/
theorem endsOpen_of_parseFrom {read : List Token} {position : Nat} {previous : Option Char}
    {skipped : Nat} {chars : List Char} {tokens : List Token}
    (isRead : parseFrom read position previous skipped chars = .ok tokens)
    (isAhead : StarAhead read (chars.drop skipped)) : EndsOpen tokens := by
  fun_induction parseFrom read position previous skipped chars with
  | case1 read position previous skipped =>
      cases isRead
      simpa [StarAhead] using isAhead
  | case2 read position previous skipped c chars induction => exact induction isRead isAhead
  | case3 read position previous chars induction =>
      exact induction isRead (isAhead.skip [] (by decide) _)
  | case5 read position previous chars more notMore isOne induction =>
      exact induction isRead (isAhead.star (endsOpen_reverse_cons rfl read))
  | case7 read position previous chars more after notMore notOne isAlone isEnd induction =>
      have isShort := List.drop_eq_nil_iff.mp isEnd
      apply induction isRead
      exact .inr ⟨List.drop_eq_nil_iff.mpr (by omega), endsOpen_pushComponents read⟩
  | case8 read position previous chars more after notMore notOne isAlone c rest isAfter isBreak
      induction =>
      have isTwo : more = 1 := by
        simp only [beq_iff_eq] at notOne
        omega
      have isChars : ∃ star, chars = star :: c :: rest := by
        rw [show after = chars.drop 1 from congrArg (chars.drop ·) isTwo] at isAfter
        cases chars with
        | nil => cases isAfter
        | cons star others => exact ⟨star, congrArg (star :: ·) isAfter⟩
      obtain ⟨star, rfl⟩ := isChars
      apply induction isRead
      apply isAhead.skip ['*', star]
      intro isStar
      rw [isStar] at isBreak
      exact absurd isBreak (by decide)
  | case10 read position previous chars token taken isBracket induction =>
      obtain ⟨inside, after, rfl, rfl⟩ := bracket?_closes isBracket
      apply induction isRead
      rw [List.drop_length_add_append, List.drop_one]
      exact isAhead.skip ('[' :: inside) (by decide) _
  | case12 read position previous c chars _ isOther _ induction =>
      exact induction isRead (isAhead.skip [] isOther _)
  | case4 | case6 | case9 | case11 => cases isRead

theorem endsOpen_of_parse {text : String} {tokens : List Token} (isRead : parse text = .ok tokens)
    (isLast : text.toList.getLast? = some '*') : EndsOpen tokens :=
  endsOpen_of_parseFrom isRead (.inl isLast)

end Reading

end StoreLint.Glob
