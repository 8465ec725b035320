import Mathlib.Data.String.Basic
import StoreLint.Project.FileSystem

/-!
# Paths piece by piece

A path is cut at its separators by positions in its bytes: one where the current piece
starts and one that has been reached.  Both are boundaries of characters all the time, so
the pieces are those of the list of characters, and a path is looked up along them.
-/

namespace StoreLint

open String

section Splitting

variable {mark : Char}

theorem get_mark : Pos.Raw.get (ofList [mark]) 0 = mark := get_of_valid [] [mark]

theorem next_mark : Pos.Raw.next (ofList [mark]) 0 = ⟨mark.utf8Size⟩ := by
  have after := next_of_valid [] mark []
  simpa using after

theorem atEnd_mark : Pos.Raw.atEnd (ofList [mark]) ⟨mark.utf8Size⟩ = true := by
  simpa using (atEnd_of_valid [mark] []).mpr rfl

theorem splitOnAux_of_reached (before piece rest : List Char) (pieces : List String) :
    splitOnAux (ofList (before ++ piece ++ rest)) (ofList [mark]) ⟨utf8Len before⟩
        ⟨utf8Len before + utf8Len piece⟩ 0 pieces =
      pieces.reverse ++ (List.splitOnPPrepend (· == mark) rest piece.reverse).map ofList := by
  induction rest generalizing before piece pieces with
  | nil =>
      have isEnd := (atEnd_of_valid (before ++ piece) []).mpr rfl
      rw [utf8Len_append] at isEnd
      rw [splitOnAux, if_pos isEnd, extract_of_valid]
      simp [List.splitOnPPrepend]
  | cons c rest induction =>
      have notEnd := mt (atEnd_of_valid (before ++ piece) (c :: rest)).mp (List.cons_ne_nil c rest)
      have isNext : Pos.Raw.get (ofList (before ++ piece ++ c :: rest))
          ⟨utf8Len (before ++ piece)⟩ = c := get_of_valid (before ++ piece) (c :: rest)
      have after := next_of_valid (before ++ piece) c rest
      rw [utf8Len_append] at notEnd isNext after
      rw [splitOnAux, if_neg notEnd, get_mark, next_mark, isNext, List.splitOnPPrepend_cons_eq_if]
      dsimp only
      -- At a mark the piece ends and the next one starts behind it; any other character joins the
      -- piece.  The separator has one character, so a match is never half way through it.
      by_cases isMark : (c == mark) = true
      · have same : c = mark := by simpa using isMark
        have back : (⟨utf8Len before + utf8Len piece + c.utf8Size⟩ : Pos.Raw).unoffsetBy
            ⟨mark.utf8Size⟩ = ⟨utf8Len before + utf8Len piece⟩ := by
          simp [Pos.Raw.unoffsetBy, same]
        have next := induction (before ++ piece ++ [c]) [] (ofList piece :: pieces)
        rw [if_pos isMark, if_pos isMark, if_pos atEnd_mark, after, back, extract_of_valid]
        simpa [Nat.add_assoc] using next
      · have stays : (⟨utf8Len before + utf8Len piece⟩ : Pos.Raw).unoffsetBy 0 =
            ⟨utf8Len before + utf8Len piece⟩ := by
          simp [Pos.Raw.unoffsetBy]
        have next := induction before (piece ++ [c]) pieces
        rw [if_neg isMark, if_neg isMark, stays, after]
        simpa [Nat.add_assoc] using next

/-- A text that is split at a character is the list of its characters split there. -/
theorem splitOn_eq_map (text : String) (mark : Char) :
    text.splitOn (ofList [mark]) = (text.toList.splitOnP (· == mark)).map ofList := by
  have isSplit := @splitOnAux_of_reached mark [] [] text.toList []
  have isMark : ¬(ofList [mark] == "") = true := by simp
  rw [splitOn, if_neg isMark]
  simpa using isSplit

end Splitting

theorem Path.segments_eq_map (path : String) :
    Path.segments path = (path.toList.splitOnP (· == '/')).map ofList :=
  splitOn_eq_map path '/'

theorem FileSystem.lookup_eq_follow (system : FileSystem) {path : String}
    (notEmpty : path.isEmpty = false) :
    system.lookup path = FileTree.follow [] system.root
      (system.fromRoot ((path.toList.splitOnP (· == '/')).map ofList)) := by
  rw [lookup, notEmpty, Path.segments_eq_map]
  rfl

end StoreLint
