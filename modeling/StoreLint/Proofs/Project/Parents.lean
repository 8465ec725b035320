import Mathlib.Data.List.Infix
import StoreLint.Project.ConfigSearch
import StoreLint.Proofs.Project.Routes

/-!
# The paths above a path

The parent of a path has all its steps but the last one, and starts where the path starts.
So the search for a configuration file comes to an end whatever files there are, and the
bound on its length is never reached.
-/

namespace StoreLint

open String

namespace Path

/-- Whether a piece leads to another directory. -/
def isStep (piece : String) : Bool := piece != "" && piece != "."

/-- The pieces of a path that lead to another directory. -/
def steps (path : String) : List String := (segments path).filter isStep

variable {path parent : String}

theorem filter_pieces : (pieces path).filter isStep = steps path := by
  by_cases isPath : path = ""
  · rw [isPath, pieces_empty, steps, segments_eq_map]
    rfl
  · cases segments_eq_pieces_append isPath with
    | inl same => rw [steps, same]
    | inr ends => rw [steps, ends, List.filter_append]; exact (List.append_nil _).symm

@[simp] theorem isStep_empty : isStep "" = false := rfl

@[simp] theorem isStep_here : isStep "." = false := rfl

theorem not_isStep (piece : String) : (!isStep piece) = (piece == "" || piece == ".") := by
  simp [isStep, bne]

theorem routeFrom_filter {here pieces : List String} :
    routeFrom here (pieces.filter isStep) = routeFrom here pieces := by
  induction pieces generalizing here with
  | nil => rfl
  | cons piece pieces induction =>
      by_cases isStep : Path.isStep piece = true
      · rw [List.filter_cons_of_pos isStep, routeFrom, routeFrom, induction, induction, induction]
      · have isIdle := not_isStep piece
        rw [Bool.not_eq_true] at isStep
        rw [List.filter_cons_of_neg (by simp [isStep]), induction, routeFrom, ← isIdle, isStep]
        rfl

theorem dropIdle_append (front : List String) (last : String) :
    dropIdle (front ++ [last]) = front.dropWhile (fun piece => !isStep piece) ++ [last] := by
  induction front with
  | nil => rfl
  | cons piece front induction =>
      have isLonger : dropIdle (piece :: (front ++ [last])) =
          if piece == "" || piece == "." then dropIdle (front ++ [last])
          else piece :: (front ++ [last]) := by
        cases front with
        | nil => rfl
        | cons next front => rfl
      rw [List.cons_append, isLonger, List.dropWhile_cons, not_isStep, induction]
      split
      · rfl
      · rfl

theorem filter_dropWhile_isStep (pieces : List String) :
    (pieces.dropWhile fun piece => !isStep piece).filter isStep = pieces.filter isStep := by
  induction pieces with
  | nil => rfl
  | cons piece pieces induction =>
      by_cases steps : isStep piece = true
      · simp [steps]
      · simp [steps, induction]

theorem separator_not_mem_of_mem_segments {piece : String} (isPiece : piece ∈ segments path) :
    '/' ∉ piece.toList := by
  rw [segments_eq_map] at isPiece
  obtain ⟨chars, isChars, rfl⟩ := List.mem_map.mp isPiece
  rw [String.toList_ofList]
  clear isPiece
  generalize path.toList = text at isChars
  induction text generalizing chars with
  | nil => simp [List.splitOnP_nil] at isChars; simp [isChars]
  | cons c text induction =>
      rw [List.splitOnP_cons_eq_if_modifyHead] at isChars
      by_cases isMark : (c == '/') = true
      · rw [if_pos isMark] at isChars
        cases List.mem_cons.mp isChars with
        | inl isFirst => simp [isFirst]
        | inr isLater => exact induction chars isLater
      · rw [if_neg isMark] at isChars
        obtain ⟨first, rest, isSplit⟩ :=
          List.exists_cons_of_ne_nil (List.splitOnP_ne_nil (· == '/') text)
        rw [isSplit] at isChars induction
        cases List.mem_cons.mp isChars with
        | inl isFirst =>
            have notFirst := induction first List.mem_cons_self
            simp only [isFirst, List.mem_cons, not_or]
            exact ⟨fun same => isMark (by simp [← same]), notFirst⟩
        | inr isLater => exact induction chars (List.mem_cons_of_mem _ isLater)

/-- What a path shows of where it starts. -/
def lead (path : String) : List String :=
  if isAbsolute path then ["/"] else if (segments path).head? == some "." then ["."] else []

theorem components_eq_lead_append : components path = lead path ++ steps path := by
  obtain ⟨first, rest, isSegments⟩ := List.exists_cons_of_ne_nil (@segments_ne_nil path)
  have starts := isAbsolute_iff_segments isSegments
  have isFilter : (fun segment => segment != "" && segment != ".") = isStep := rfl
  rw [components, lead, steps, isSegments]
  simp only [isFilter, List.filter_cons]
  by_cases isRoot : isAbsolute path = true
  · simp [isRoot, (starts.mp isRoot).1]
  · by_cases isEmpty : first = ""
    · simp [isRoot, isEmpty]
    · by_cases isHere : first = "."
      · simp [isRoot, isHere]
      · have isFirst : isStep first = true := by simp [isEmpty, isHere, isStep]
        simp [isRoot, isEmpty, isHere, isFirst]

theorem segments_intercalate {kept : List String} (isKept : kept ≠ [])
    (noSeparator : ∀ piece ∈ kept, '/' ∉ piece.toList) :
    segments (String.intercalate "/" kept) = kept := by
  have isSplit := @List.splitOn_intercalate _ (kept.map String.toList) _ _ '/' ?_ ?_
  · rw [segments_eq_map, String.toList_intercalate]
    refine (congrArg (List.map ofList) isSplit).trans ?_
    simp
  · simpa using noSeparator
  · simpa using isKept

/-- How a parent is related to its path. -/
structure IsParent (path parent : String) : Prop where
  steps_eq : steps parent = (steps path).dropLast
  starts_eq : isAbsolute parent = isAbsolute path
  shorter : (components parent).length < (components path).length

theorem not_root_mem_steps : "/" ∉ steps path := by
  intro isStep
  exact separator_not_mem_of_mem_segments (List.mem_of_mem_filter isStep) (by simp)

theorem isParent_empty (isRelative : isAbsolute path = false) (isSomething : components path ≠ [])
    (isShort : (steps path).length ≤ 1) : IsParent path "" := by
  have isEmpty : segments "" = [""] := by rw [segments_eq_map]; rfl
  have noSteps : steps "" = [] := by rw [steps, isEmpty]; rfl
  refine ⟨?_, ?_, ?_⟩
  · rw [noSteps]
    exact (List.eq_nil_of_length_eq_zero (by simp; omega)).symm
  · rw [isRelative, isAbsolute_empty]
  · have noComponents : components "" = [] := by
      rw [components_eq_lead_append, noSteps, lead, isEmpty, isAbsolute_empty]
      rfl
    rw [noComponents]
    exact List.length_pos_iff.mpr isSomething

theorem steps_of_segments {first : String} {rest : List String}
    (isSegments : segments path = first :: rest) :
    steps path = [first].filter isStep ++
      ((rest.reverse.dropWhile fun piece => !isStep piece).filter isStep).reverse := by
  rw [steps, isSegments, filter_dropWhile_isStep, List.filter_reverse, List.reverse_reverse,
    ← List.filter_append, List.singleton_append]

theorem isParent_root (isRoot : isAbsolute path = true) (isLower : steps path ≠ [])
    (isShort : (steps path).length ≤ 1) : IsParent path "/" := by
  have isSegments : segments "/" = ["", ""] := by rw [segments_eq_map]; rfl
  have noSteps : steps "/" = [] := by rw [steps, isSegments]; rfl
  have isAbsolute : Path.isAbsolute "/" = true := isAbsolute_iff.mpr (by simp)
  refine ⟨?_, by rw [isRoot, isAbsolute], ?_⟩
  · rw [noSteps]
    exact (List.eq_nil_of_length_eq_zero (by simp; omega)).symm
  · have isLonger := List.length_pos_iff.mpr isLower
    rw [components_eq_lead_append, components_eq_lead_append, noSteps, lead, lead, isRoot,
      isAbsolute]
    simpa using isLonger

theorem isParent_of_segments {first last : String} {rest kept : List String}
    (isPath : segments path = first :: rest) (isParent : segments parent = first :: kept)
    (isSteps : steps path = steps parent ++ [last])
    (starts : isAbsolute parent = isAbsolute path) : IsParent path parent := by
  refine ⟨by rw [isSteps, List.dropLast_concat], starts, ?_⟩
  rw [components_eq_lead_append, components_eq_lead_append, isSteps, lead, lead, isPath, isParent,
    starts]
  simp

theorem isParent_kept {first step : String} {rest before kept : List String}
    (isSegments : segments path = first :: rest)
    (isLast : rest.reverse.dropWhile (fun piece => !isStep piece) = step :: before)
    (isKept : before.dropWhile (fun piece => !isStep piece) = kept) :
    IsParent path
      (if first = "" ∧ kept = [] then "/" else intercalate "/" (first :: kept.reverse)) := by
  have starts := isAbsolute_iff_segments isSegments
  have isRest : rest ≠ [] := by
    intro isEmpty
    simp [isEmpty] at isLast
  have isStep : isStep step = true := by
    have notIdle := List.head?_dropWhile_not (fun piece => !isStep piece) rest.reverse
    rw [isLast] at notIdle
    simpa using notIdle
  have areSteps := steps_of_segments isSegments
  rw [isLast, List.filter_cons_of_pos isStep, List.reverse_cons, ← filter_dropWhile_isStep before,
    isKept] at areSteps
  split
  · next isTop =>
    rw [isTop.1, isTop.2] at areSteps
    apply isParent_root (starts.mpr ⟨isTop.1, isRest⟩)
    · simp [areSteps]
    · simp [areSteps]
  · next notTop =>
    have areKept : segments (intercalate "/" (first :: kept.reverse)) = first :: kept.reverse := by
      apply segments_intercalate (List.cons_ne_nil _ _)
      intro piece isPiece
      apply @separator_not_mem_of_mem_segments path
      have isBefore : kept <:+ rest.reverse := by
        rw [← isKept]
        exact (List.dropWhile_suffix _).trans
          ((List.suffix_cons step before).trans (isLast ▸ List.dropWhile_suffix _))
      rw [isSegments]
      cases List.mem_cons.mp isPiece with
      | inl isFirst => exact isFirst ▸ List.mem_cons_self
      | inr isLater =>
          apply List.mem_cons_of_mem
          exact List.mem_reverse.mp (isBefore.subset (List.mem_reverse.mp isLater))
    apply @isParent_of_segments _ _ _ step _ _ isSegments areKept
    · rw [areSteps, ← List.append_assoc, steps, areKept, List.filter_reverse.symm,
        ← List.filter_append, List.singleton_append]
    · apply Bool.eq_iff_iff.mpr
      rw [starts, isAbsolute_iff_segments areKept]
      simp only [ne_eq, isRest, not_false_eq_true, and_true, List.reverse_eq_nil_iff]
      exact ⟨fun isRoot => isRoot.1, fun isEmpty => ⟨isEmpty, fun none => notTop ⟨isEmpty, none⟩⟩⟩

/-- Each path but an empty one and the root has a parent. -/
theorem parent?_cases :
    (parent? path = none ∧ steps path = []) ∨
      ∃ parent, parent? path = some parent ∧ IsParent path parent := by
  obtain ⟨first, rest, isSegments⟩ := List.exists_cons_of_ne_nil (@segments_ne_nil path)
  have starts := isAbsolute_iff_segments isSegments
  have areComponents := @components_eq_lead_append path
  have areSteps := steps_of_segments isSegments
  rw [parent?]
  split
  · next isNothing =>
    rw [isNothing] at areComponents
    exact .inl ⟨rfl, (List.append_eq_nil_iff.mp areComponents.symm).2⟩
  · next isRoot =>
    refine .inl ⟨rfl, ?_⟩
    rw [isRoot] at areComponents
    cases List.append_eq_singleton_iff.mp areComponents.symm with
    | inl isStep =>
        have isRoot := @not_root_mem_steps path
        rw [isStep.2] at isRoot
        exact absurd List.mem_cons_self isRoot
    | inr isLead => exact isLead.2
  · next isSomething notRoot =>
    right
    rw [isSegments, List.reverse_cons, dropIdle_append]
    cases isLast : rest.reverse.dropWhile (fun piece => !isStep piece) with
    | nil =>
        refine ⟨"", rfl, ?_⟩
        rw [isLast] at areSteps
        have isRelative : isAbsolute path = false := by
          apply Bool.eq_false_iff.mpr
          intro isRoot
          apply notRoot
          rw [areComponents, areSteps, lead, isRoot, (starts.mp isRoot).1]
          rfl
        apply isParent_empty isRelative isSomething
        rw [areSteps]
        exact (List.length_append ..).trans_le (by simpa using List.length_filter_le isStep [first])
    | cons step before =>
        refine ⟨_, ?_, isParent_kept isSegments isLast rfl⟩
        have isRest : rest ≠ [] := by
          intro isEmpty
          simp [isEmpty] at isLast
        rw [List.cons_append]
        dsimp only
        rw [dropIdle_append, List.reverse_append, List.reverse_singleton, List.singleton_append]
        split
        · next isTop =>
          obtain ⟨rfl, noneKept⟩ := List.cons.inj isTop
          rw [if_pos (starts.mpr ⟨rfl, isRest⟩), if_pos ⟨rfl, List.reverse_eq_nil_iff.mp noneKept⟩]
        · next notTop =>
          rw [if_neg]
          intro isTop
          apply notTop
          rw [isTop.1, isTop.2]
          rfl

theorem length_segments_le : (segments path).length ≤ path.length + 1 := by
  rw [segments_eq_map, List.length_map, ← String.length_toList]
  generalize path.toList = text
  induction text with
  | nil => simp [List.splitOnP_nil]
  | cons c text induction =>
      rw [List.splitOnP_cons_eq_if_modifyHead]
      split
      · simpa using induction
      · rw [List.length_modifyHead, List.length_cons]
        omega

theorem length_components_le : (components path).length ≤ path.length + 1 := by
  apply Nat.le_trans _ length_segments_le
  obtain ⟨first, rest, isSegments⟩ := List.exists_cons_of_ne_nil (@segments_ne_nil path)
  have fewer := List.length_filter_le isStep rest
  rw [components, isSegments]
  change (if isAbsolute path then "/" :: rest.filter isStep else if first == "" then
    rest.filter isStep else first :: rest.filter isStep).length ≤ (first :: rest).length
  split
  · simpa using fewer
  · split
    · rw [List.length_cons]
      omega
    · simpa using fewer

/-- What passes from the parent of each path to the path holds of every path. -/
theorem parent_induction {holds : String → Prop}
    (passes : ∀ path, (∀ parent, IsParent path parent → holds parent) → holds path)
    (path : String) : holds path := by
  induction isLength : (components path).length using Nat.strong_induction_on generalizing path with
  | _ length induction =>
      apply passes
      intro parent isParent
      exact induction _ (isLength ▸ isParent.shorter) parent rfl

end Path

namespace FileSystem

variable {system : FileSystem} {path : String}

/-- The place of the current directory. -/
def here (system : FileSystem) : List String := Path.routeFrom [] system.current

/-- The pieces that come before those of a path. -/
def before (system : FileSystem) (path : String) : List String :=
  if Path.isAbsolute path then [] else system.current

def origin (system : FileSystem) (path : String) : List String :=
  Path.routeFrom [] (system.before path)

theorem fromRoot_pieces :
    system.fromRoot (Path.pieces path) = system.before path ++ Path.pieces path := by
  rw [before]
  by_cases isRoot : Path.isAbsolute path = true
  · rw [if_pos isRoot, fromRoot, if_pos (by simpa using Path.isAbsolute_iff_pieces.mp isRoot)]
    rfl
  · rw [if_neg isRoot, fromRoot_of_relative (mt Path.isAbsolute_iff_pieces.mpr isRoot)]

/-- A path leads to the place of its steps, from where it starts on. -/
theorem route_eq : system.route path = Path.routeFrom (system.origin path) (Path.steps path) := by
  rw [route, fromRoot_pieces, Path.routeFrom_append, ← Path.filter_pieces, Path.routeFrom_filter,
    origin]

end FileSystem

section Search

variable {holds : String → Bool} {start : String}

theorem searchConfigWithin_eq {bound other : Nat}
    (isEnough : (Path.components start).length < bound)
    (isAlsoEnough : (Path.components start).length < other) :
    searchConfigWithin holds bound start = searchConfigWithin holds other start := by
  induction bound generalizing other start with
  | zero => omega
  | succ bound induction =>
      cases other with
      | zero => omega
      | succ other =>
          rw [searchConfigWithin, searchConfigWithin]
          cases @Path.parent?_cases start with
          | inl isTop => simp [isTop.1]
          | inr isLower =>
              obtain ⟨parent, isParent, related⟩ := isLower
              have shorter := related.shorter
              rw [isParent]
              dsimp only
              rw [@induction parent other (by omega) (by omega)]

/-- One step of the search, which then goes on from the parent. -/
theorem searchConfig_eq :
    searchConfig holds start =
      if holds (Path.join start configFileName) then some (Path.join start configFileName)
      else if holds (Path.join start repositoryMark) then none
      else (Path.parent? start).bind (searchConfig holds) := by
  rw [searchConfig, searchConfigWithin]
  cases @Path.parent?_cases start with
  | inl isTop => rw [isTop.1]; rfl
  | inr isLower =>
      obtain ⟨parent, isParent, related⟩ := isLower
      have shorter := related.shorter
      have bounded := @Path.length_components_le start
      have parentBounded := @Path.length_components_le parent
      rw [isParent, Option.bind_some, searchConfig]
      dsimp only
      rw [@searchConfigWithin_eq _ parent (start.length + 1) (parent.length + 2) (by omega)
        (by omega)]

theorem holds_of_searchConfig {path : String} (isFound : searchConfig holds start = some path) :
    holds path = true := by
  induction start using Path.parent_induction with
  | _ start induction =>
      rw [searchConfig_eq] at isFound
      split at isFound
      · next isHeld =>
        cases isFound
        exact isHeld
      · split at isFound
        · cases isFound
        · cases @Path.parent?_cases start with
          | inl isTop =>
              rw [isTop.1] at isFound
              cases isFound
          | inr isLower =>
              obtain ⟨parent, isParent, related⟩ := isLower
              rw [isParent] at isFound
              exact induction parent related isFound

end Search

end StoreLint
