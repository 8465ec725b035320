import StoreLint.Proofs.Project.Parents

/-!
# Paths that stay inside a directory

A path below a directory that never goes up more often than it has gone down names the same
thing wherever the directory is.
-/

namespace StoreLint

namespace Path

/-- How far pieces lead down from a directory that lies at a depth, unless they lead out at the
top. -/
def depthFrom (depth : Nat) : List String → Option Nat
  | [] => some depth
  | piece :: pieces =>
      if piece == "" || piece == "." then depthFrom depth pieces
      else if piece == ".." then
        if depth == 0 then none else depthFrom (depth - 1) pieces
      else depthFrom (depth + 1) pieces

/-- The pieces never lead out of the directory where they start. -/
def Inside (pieces : List String) : Prop := (depthFrom 0 pieces).isSome = true

variable {depth : Nat} {here pieces : List String}

theorem depthFrom_append {first last : List String} :
    depthFrom depth (first ++ last) =
      (depthFrom depth first).bind fun depth => depthFrom depth last := by
  fun_induction depthFrom depth first with
  | case1 depth => rfl
  | case2 depth piece pieces stays induction => simp [depthFrom, stays, induction]
  | case3 depth piece pieces stays goesUp isTop =>
      simp [depthFrom, eq_of_beq goesUp, eq_of_beq isTop]
  | case4 depth piece pieces stays goesUp isLower induction =>
      simp only [List.cons_append, depthFrom, if_neg stays, if_pos goesUp, if_neg isLower,
        induction]
  | case5 depth piece pieces moves goesDown induction =>
      simp [depthFrom, moves, goesDown, induction]

theorem routeFrom_of_isSome_depthFrom (stays : (depthFrom here.length pieces).isSome = true)
    (above : List String) : routeFrom (above ++ here) pieces = above ++ routeFrom here pieces := by
  fun_induction routeFrom here pieces with
  | case1 here => rfl
  | case2 here piece pieces isIdle induction =>
      rw [depthFrom, if_pos isIdle] at stays
      rw [routeFrom, if_pos isIdle]
      exact induction stays
  | case3 here piece pieces moves goesUp induction =>
      rw [depthFrom, if_neg moves, if_pos goesUp] at stays
      rw [routeFrom, if_neg moves, if_pos goesUp]
      cases List.eq_nil_or_concat' here with
      | inl isTop =>
          rw [isTop] at stays
          cases stays
      | inr isLower =>
          obtain ⟨front, last, rfl⟩ := isLower
          rw [List.length_append, List.length_singleton] at stays
          rw [List.dropLast_concat] at induction ⊢
          rw [← List.append_assoc, List.dropLast_concat]
          exact induction stays
  | case4 here piece pieces moves goesDown induction =>
      rw [depthFrom, if_neg moves, if_neg goesDown] at stays
      rw [routeFrom, if_neg moves, if_neg goesDown, List.append_assoc]
      apply induction
      rw [List.length_append, List.length_singleton]
      exact stays

theorem depthFrom_names {names : List String} (areNames : ∀ name ∈ names, IsName name) :
    depthFrom depth names = some (depth + names.length) := by
  induction names generalizing depth with
  | nil => rfl
  | cons name names induction =>
      have isName := areNames name List.mem_cons_self
      have later := @induction (depth + 1)
        fun name isLater => areNames name (List.mem_cons_of_mem _ isLater)
      simp only [depthFrom, isName.notEmpty, isName.notHere, isName.notUp, beq_iff_eq,
        Bool.or_eq_true, or_self, if_false, later, List.length_cons]
      congr 1
      omega

theorem Inside.append_names {names : List String} (inside : Inside pieces)
    (areNames : ∀ name ∈ names, IsName name) : Inside (pieces ++ names) := by
  obtain ⟨depth, isDepth⟩ := Option.isSome_iff_exists.mp inside
  rw [Inside, depthFrom_append, isDepth, Option.bind_some, depthFrom_names areNames]
  rfl

theorem Inside.routeFrom (inside : Inside pieces) (above : List String) :
    Path.routeFrom above pieces = above ++ Path.routeFrom [] pieces := by
  have isRoute := @routeFrom_of_isSome_depthFrom [] pieces inside above
  rwa [List.append_nil] at isRoute

end Path

namespace FileTree

variable {node : FileTree} {pieces : List String}

theorem follow_of_isSome_depthFrom {outer : List FileTree} {current : FileTree}
    (stays : (Path.depthFrom outer.length pieces).isSome = true) (more : List FileTree) :
    follow (outer ++ more) current pieces = follow outer current pieces := by
  fun_induction follow outer current pieces with
  | case1 outer current => rfl
  | case2 outer piece pieces content => rfl
  | case3 outer piece pieces entries isIdle induction =>
      rw [Path.depthFrom, if_pos isIdle] at stays
      simp only [follow, if_pos isIdle]
      exact induction stays
  | case4 piece pieces entries moves goesUp induction =>
      simp [Path.depthFrom, eq_of_beq goesUp] at stays
  | case5 piece pieces entries moves goesUp parent outer induction =>
      rw [Path.depthFrom, if_neg moves, if_pos goesUp] at stays
      simp only [List.cons_append, follow, if_neg moves, if_pos goesUp]
      exact induction stays
  | case6 outer piece pieces entries moves goesDown child isChild induction =>
      rw [Path.depthFrom, if_neg moves, if_neg goesDown] at stays
      simp only [follow, if_neg moves, if_neg goesDown, isChild]
      exact induction stays
  | case7 outer piece pieces entries moves goesDown isMissing =>
      simp only [follow, if_neg moves, if_neg goesDown, isMissing]

theorem follow_of_inside {outer : List FileTree} {current : FileTree}
    (inside : Path.Inside pieces) : follow outer current pieces = follow [] current pieces :=
  @follow_of_isSome_depthFrom pieces [] current inside outer

/-- Names lead on from what pieces lead to. -/
theorem follow_append_names {outer : List FileTree} {current first : FileTree} {names : List String}
    (isFirst : follow outer current pieces = .ok first)
    (areNames : ∀ name ∈ names, Path.IsName name)
    (isNode : first.node? names = some node) :
    follow outer current (pieces ++ names) = .ok node := by
  induction names generalizing pieces first with
  | nil =>
      cases isNode
      rw [List.append_nil, isFirst]
  | cons name names induction =>
      cases first with
      | file content => cases isNode
      | directory entries =>
          obtain ⟨child, isChild, isBelow⟩ := Option.bind_eq_some_iff.mp isNode
          have isName := areNames name List.mem_cons_self
          have isNext : follow outer current (pieces ++ [name]) = .ok child := by
            rw [← List.append_nil pieces] at isFirst
            apply follow_append _ isFirst
            intro outer current isHere
            cases isHere
            simp [follow, isName.notEmpty, isName.notHere, isName.notUp, isChild]
          have later := induction isNext
            (fun name isLater => areNames name (List.mem_cons_of_mem _ isLater)) isBelow
          rw [List.append_assoc] at later
          exact later

end FileTree

namespace FileSystem

variable {system : FileSystem} {node : FileTree} {base text path : String} {pieces : List String}

theorem exists_follow_pieces_append (isNode : system.lookup base = .ok node) :
    ∃ outer, ∀ more,
      FileTree.follow [] system.root (system.fromRoot (Path.pieces base) ++ more) =
        FileTree.follow outer node more := by
  obtain ⟨isPath, isFollowed⟩ := lookup_eq_ok_iff.mp isNode
  have isSegments := @fromRoot_segments system base isPath
  cases FileTree.follow_append_cases [] system.root (system.fromRoot (Path.pieces base)) with
  | inl stops =>
      obtain ⟨error, stops⟩ := stops
      cases isSegments with
      | inl same =>
          have isError := stops []
          rw [List.append_nil, ← same, isFollowed] at isError
          cases isError
      | inr ends =>
          rw [ends, stops] at isFollowed
          cases isFollowed
  | inr leads =>
      obtain ⟨outer, found, isFound, leads⟩ := leads
      refine ⟨outer, ?_⟩
      have same : found = node := by
        cases isSegments with
        | inl same =>
            rw [same, isFound] at isFollowed
            exact Except.ok.inj isFollowed
        | inr ends =>
            rw [ends, leads] at isFollowed
            exact FileTree.follow_idle (by simp) isFollowed
      exact same ▸ leads

/-- What comes after the pieces of a directory, and stays inside, is followed from the directory. -/
theorem follow_pieces_append (isNode : system.lookup base = .ok node)
    (inside : Path.Inside pieces) :
    FileTree.follow [] system.root (system.fromRoot (Path.pieces base) ++ pieces) =
      FileTree.follow [] node pieces := by
  obtain ⟨outer, leads⟩ := exists_follow_pieces_append isNode
  rw [leads, FileTree.follow_of_inside inside]

theorem lookup_of_ne_empty (isPath : path ≠ "") :
    system.lookup path =
      FileTree.follow [] system.root (system.fromRoot (Path.segments path)) := by
  rw [lookup, if_neg (by simpa using isPath)]

theorem lookup_join_inside (isNode : system.lookup base = .ok node)
    (isRelative : Path.isAbsolute text = false) (inside : Path.Inside (Path.segments text)) :
    system.lookup (Path.join base text) = FileTree.follow [] node (Path.segments text) := by
  have isPath := (lookup_eq_ok_iff.mp isNode).1
  rw [lookup_of_ne_empty (Path.join_tail_ne_empty isPath isRelative),
    Path.segments_join_tail isPath isRelative, fromRoot_append (Path.pieces_ne_nil isPath)]
  exact follow_pieces_append isNode inside

end FileSystem

end StoreLint
