import StoreLint.Project.Scan
import StoreLint.Proofs.Project.Path

/-!
# The paths of a walk

A walk starts at a path and goes on by joining names to it, so each path that it reaches
below a directory starts with the path of the directory, as a text and by components, and
it names what the walk has found there.
-/

namespace StoreLint

open String

/-- A name that an entry of a directory can have. -/
structure Path.IsName (name : String) : Prop where
  notEmpty : name ≠ ""
  notHere : name ≠ "."
  notUp : name ≠ ".."
  noSeparator : '/' ∉ name.toList

/-- The entries of each directory have names, no two of them the same. -/
inductive FileTree.WellNamed : FileTree → Prop where
  | file (content : FileContent) : WellNamed (.file content)
  | directory {entries : List (String × FileTree)}
      (distinct : (entries.map Prod.fst).Nodup)
      (names : ∀ entry ∈ entries, Path.IsName entry.1)
      (nodes : ∀ entry ∈ entries, WellNamed entry.2) :
      WellNamed (.directory entries)

namespace Path

variable {path name : String}

theorem isAbsolute_iff : isAbsolute path = true ↔ ['/'] <+: path.toList :=
  startsWith_string_iff

theorem endsWith_separator_iff : path.endsWith "/" = true ↔ ['/'] <:+ path.toList := by
  rw [endsWith_eq_endsWith_toSlice, Slice.endsWith_string_iff]
  simp

theorem IsName.isAbsolute_eq_false (isName : IsName name) : isAbsolute name = false := by
  apply Bool.eq_false_iff.mpr
  intro isAbsolute
  obtain ⟨rest, isText⟩ := isAbsolute_iff.mp isAbsolute
  apply isName.noSeparator
  rw [← isText]
  exact List.mem_cons_self

/-- All paths below a path start with the path joined with nothing, which ends with a separator. -/
theorem join_eq_append (isPath : path ≠ "") (isRelative : isAbsolute name = false) :
    join path name = join path "" ++ name := by
  have nonempty : path.isEmpty = false := by simpa using isPath
  have nothing : isAbsolute "" = false := by decide +kernel
  rw [join, join, isRelative, nothing, nonempty]
  by_cases ends : path.endsWith "/" = true
  · simp [ends]
  · simp [ends, String.append_assoc]

theorem toList_join (isPath : path ≠ "") :
    ∃ front, (join path "").toList = front ++ ['/'] ∧
      (path.toList = front ∨ path.toList = front ++ ['/']) := by
  have nonempty : path.isEmpty = false := by simpa using isPath
  have nothing : isAbsolute "" = false := by decide +kernel
  rw [join, nothing, nonempty, Bool.or_false, if_neg Bool.false_ne_true]
  by_cases ends : path.endsWith "/" = true
  · obtain ⟨front, isText⟩ := endsWith_separator_iff.mp ends
    refine ⟨front, ?_, .inr isText.symm⟩
    rw [if_pos ends, String.append_empty, isText]
  · refine ⟨path.toList, ?_, .inl rfl⟩
    simp [ends]

theorem IsName.splitOnP_eq (isName : IsName name) :
    name.toList.splitOnP (· == '/') = [name.toList] := by
  apply List.splitOnP_eq_singleton
  intro c isChar
  apply beq_false_of_ne
  intro isMark
  exact isName.noSeparator (isMark ▸ isChar)

/-- A joined name is one more piece, in place of the empty one after a separator at the end. -/
theorem segments_join (isPath : path ≠ "") (isName : IsName name) :
    ∃ first pieces idle, (∀ piece ∈ idle, piece = "") ∧
      segments path = first :: pieces ++ idle ∧
      segments (join path name) = first :: pieces ++ [name] := by
  obtain ⟨front, isJoined, isFront⟩ := toList_join isPath
  have joined : segments (join path name) =
      (front.splitOnP (· == '/')).map ofList ++ [name] := by
    rw [segments_eq_map, join_eq_append isPath isName.isAbsolute_eq_false, String.toList_append,
      isJoined, List.append_assoc, List.singleton_append,
      List.splitOnP_append_cons front _ (by rfl), isName.splitOnP_eq]
    simp
  obtain ⟨first, pieces, isSplit⟩ :=
    List.exists_cons_of_ne_nil (List.splitOnP_ne_nil (· == '/') front)
  rw [isSplit] at joined
  cases isFront with
  | inl same =>
      refine ⟨ofList first, pieces.map ofList, [], by simp, ?_, joined⟩
      rw [segments_eq_map, same, isSplit]
      simp
  | inr ends =>
      refine ⟨ofList first, pieces.map ofList, [""], by simp, ?_, joined⟩
      rw [segments_eq_map, ends, List.splitOnP_append_cons front _ (by rfl), isSplit]
      simp

theorem isPrefix_join_nothing (isPath : path ≠ "") : path.toList <+: (join path "").toList := by
  obtain ⟨front, isJoined, isFront⟩ := toList_join isPath
  rw [isJoined]
  cases isFront with
  | inl same => exact same ▸ List.prefix_append _ _
  | inr ends => exact ends ▸ List.prefix_refl _

theorem isPrefix_join (isPath : path ≠ "") (isName : IsName name) :
    path.toList <+: (join path name).toList := by
  rw [join_eq_append isPath isName.isAbsolute_eq_false, String.toList_append]
  exact (isPrefix_join_nothing isPath).trans (List.prefix_append _ _)

theorem join_ne_empty (isPath : path ≠ "") (isName : IsName name) : join path name ≠ "" := by
  intro isEmpty
  have starts := isPrefix_join isPath isName
  rw [isEmpty] at starts
  exact isPath (String.toList_eq_nil_iff.mp (List.prefix_nil.mp starts))

theorem isAbsolute_join (isPath : path ≠ "") (isName : IsName name) :
    isAbsolute (join path name) = isAbsolute path := by
  obtain ⟨c, chars, isText⟩ := List.exists_cons_of_ne_nil (mt String.toList_eq_nil_iff.mp isPath)
  obtain ⟨more, isJoined⟩ := isPrefix_join isPath isName
  apply Bool.eq_iff_iff.mpr
  rw [isAbsolute_iff, isAbsolute_iff, ← isJoined, isText]
  simp

/-- A joined name is one more component. -/
theorem components_join (isPath : path ≠ "") (isName : IsName name) :
    components (join path name) = components path ++ [name] := by
  obtain ⟨first, pieces, idle, isIdle, isSegments, isJoined⟩ := segments_join isPath isName
  have leftOut : idle.filter (fun segment => segment != "" && segment != ".") = [] := by
    apply List.filter_eq_nil_iff.mpr
    intro piece isPiece
    simp [isIdle piece isPiece]
  have names : (pieces ++ [name]).filter (fun segment => segment != "" && segment != ".") =
      (pieces ++ idle).filter (fun segment => segment != "" && segment != ".") ++ [name] := by
    rw [List.filter_append, List.filter_append, leftOut, List.append_nil]
    simp [isName.notEmpty, isName.notHere]
  rw [components, components, isSegments, isJoined, isAbsolute_join isPath isName]
  simp only [List.cons_append, names]
  split
  · rfl
  · split
    · rfl
    · rfl

end Path

namespace FileTree

variable {node : FileTree} {path name : String} {entries : List (String × FileTree)}
  {found : String × FileTree}

theorem child?_of_mem (distinct : (entries.map Prod.fst).Nodup) (isEntry : (name, node) ∈ entries) :
    child? name entries = some node := by
  induction entries with
  | nil => cases isEntry
  | cons entry entries induction =>
      obtain ⟨fresh, distinct⟩ := List.nodup_cons.mp distinct
      rw [child?]
      cases List.mem_cons.mp isEntry with
      | inl isFirst => simp [← isFirst]
      | inr isLater =>
          have isOther : ¬(entry.1 == name) = true := by
            intro same
            apply fresh
            rw [eq_of_beq same]
            exact List.mem_map_of_mem isLater
          rw [if_neg isOther]
          exact induction distinct isLater

theorem mem_of_child? (isChild : child? name entries = some node) : (name, node) ∈ entries := by
  fun_induction child? name entries with
  | case1 => cases isChild
  | case2 found first entries same =>
      cases isChild
      rw [eq_of_beq same]
      exact List.mem_cons_self
  | case3 found first entries _ induction => exact List.mem_cons_of_mem _ (induction isChild)

/-- What the last pieces lead to is all that counts. -/
theorem follow_append {last other : List String} {before after : FileTree}
    (leads : ∀ outer current, follow outer current last = .ok before →
      follow outer current other = .ok after)
    {outer : List FileTree} {current : FileTree} {pieces : List String}
    (isBefore : follow outer current (pieces ++ last) = .ok before) :
    follow outer current (pieces ++ other) = .ok after := by
  fun_induction follow outer current pieces with
  | case1 outer current => exact leads outer current isBefore
  | case2 outer piece pieces content => cases isBefore
  | case3 outer piece pieces entries stays induction =>
      simp only [List.cons_append, follow, if_pos stays] at isBefore ⊢
      exact induction isBefore
  | case4 piece pieces entries moves goesUp induction =>
      simp only [List.cons_append, follow, if_neg moves, if_pos goesUp] at isBefore ⊢
      exact induction isBefore
  | case5 piece pieces entries moves goesUp parent outer induction =>
      simp only [List.cons_append, follow, if_neg moves, if_pos goesUp] at isBefore ⊢
      exact induction isBefore
  | case6 outer piece pieces entries moves goesDown node isChild induction =>
      simp only [List.cons_append, follow, if_neg moves, if_neg goesDown, isChild] at isBefore ⊢
      exact induction isBefore
  | case7 outer piece pieces entries moves goesDown isMissing =>
      simp only [List.cons_append, follow, if_neg moves, if_neg goesDown, isMissing] at isBefore
      cases isBefore

theorem follow_idle {idle : List String} (isIdle : ∀ piece ∈ idle, piece = "")
    {outer : List FileTree} {current : FileTree} (isNode : follow outer current idle = .ok node) :
    current = node := by
  induction idle with
  | nil => exact Except.ok.inj isNode
  | cons piece idle induction =>
      cases current with
      | file content => cases isNode
      | directory entries =>
          have isEmpty := isIdle piece List.mem_cons_self
          simp only [follow, isEmpty] at isNode
          apply induction _ isNode
          intro piece isPiece
          exact isIdle piece (List.mem_cons_of_mem _ isPiece)

theorem WellNamed.follow {outer : List FileTree} {current : FileTree} {pieces : List String}
    (areNamed : ∀ directory ∈ outer, directory.WellNamed) (isNamed : current.WellNamed)
    (isNode : FileTree.follow outer current pieces = .ok node) : node.WellNamed := by
  fun_induction FileTree.follow outer current pieces with
  | case1 outer current =>
      cases isNode
      exact isNamed
  | case2 outer piece pieces content => cases isNode
  | case3 outer piece pieces entries stays induction => exact induction areNamed isNamed isNode
  | case4 piece pieces entries moves goesUp induction => exact induction areNamed isNamed isNode
  | case5 piece pieces entries moves goesUp parent outer induction =>
      apply induction _ (areNamed parent List.mem_cons_self) isNode
      intro directory isOuter
      exact areNamed directory (List.mem_cons_of_mem _ isOuter)
  | case6 outer piece pieces entries moves goesDown child isChild induction =>
      cases isNamed with
      | directory distinct names nodes =>
          apply induction _ (nodes _ (mem_of_child? isChild)) isNode
          intro directory isOuter
          cases List.mem_cons.mp isOuter with
          | inl isCurrent => exact isCurrent ▸ .directory distinct names nodes
          | inr isOuter => exact areNamed directory isOuter
  | case7 outer piece pieces entries moves goesDown isMissing => cases isNode

theorem mem_walkEntries_iff :
    found ∈ walkEntries path entries ↔
      ∃ entry ∈ entries, found ∈ entry.2.walk (Path.join path entry.1) := by
  induction entries with
  | nil => simp [walkEntries]
  | cons entry entries induction =>
      rw [walkEntries, List.mem_append, induction]
      simp

mutual

/-- What holds at the start of a walk and passes from each directory to its entries holds of
everything that is reached. -/
theorem walk_induction (holds : String → FileTree → Prop)
    (passes : ∀ path entries, holds path (.directory entries) →
      ∀ entry ∈ entries, holds (Path.join path entry.1) entry.2)
    {path : String} {node : FileTree} (isStart : holds path node)
    {found : String × FileTree} (isFound : found ∈ node.walk path) : holds found.1 found.2 := by
  cases node with
  | file content =>
      cases List.mem_singleton.mp isFound
      exact isStart
  | directory entries =>
      cases List.mem_cons.mp isFound with
      | inl isNode =>
          cases isNode
          exact isStart
      | inr isBelow =>
          exact walkEntries_induction holds passes (passes path entries isStart) isBelow

theorem walkEntries_induction (holds : String → FileTree → Prop)
    (passes : ∀ path entries, holds path (.directory entries) →
      ∀ entry ∈ entries, holds (Path.join path entry.1) entry.2)
    {path : String} {entries : List (String × FileTree)}
    (areStarts : ∀ entry ∈ entries, holds (Path.join path entry.1) entry.2)
    {found : String × FileTree} (isFound : found ∈ walkEntries path entries) :
    holds found.1 found.2 := by
  cases entries with
  | nil => cases isFound
  | cons entry entries =>
      cases List.mem_append.mp isFound with
      | inl isFirst =>
          exact walk_induction holds passes (areStarts entry List.mem_cons_self) isFirst
      | inr isLater =>
          apply walkEntries_induction holds passes _ isLater
          intro other isEntry
          exact areStarts other (List.mem_cons_of_mem _ isEntry)

end

/-- A walk goes through all of a directory that it reaches. -/
theorem mem_walk_of_mem_walkEntries {directory : String}
    (isReached : (directory, .directory entries) ∈ node.walk path)
    (isBelow : found ∈ walkEntries directory entries) : found ∈ node.walk path := by
  have inside : ∀ below ∈ walk directory (.directory entries), below ∈ node.walk path := by
    refine walk_induction (fun start below => ∀ found ∈ below.walk start, found ∈ node.walk path)
      ?_ (fun found isFound => isFound) isReached
    intro start entries inside entry isEntry found isFound
    exact inside found (List.mem_cons_of_mem _ (mem_walkEntries_iff.mpr ⟨entry, isEntry, isFound⟩))
  exact inside found (List.mem_cons_of_mem _ isBelow)

/-- What lies below a directory starts with its path and a separator, and has all its components. -/
theorem starts_of_mem_walkEntries (isPath : path ≠ "")
    (isNamed : (directory entries).WellNamed) (isBelow : found ∈ walkEntries path entries) :
    (Path.join path "").toList <+: found.1.toList ∧
      Path.components path <+: Path.components found.1 := by
  have below := walkEntries_induction (fun reached node =>
    (reached ≠ "" ∧ node.WellNamed) ∧ (Path.join path "").toList <+: reached.toList ∧
      Path.components path <+: Path.components reached) ?_ ?_ isBelow
  · exact below.2
  · rintro reached entries ⟨⟨isReached, isNamed⟩, text, components⟩ entry isEntry
    cases isNamed with
    | directory distinct names nodes =>
        have isName := names entry isEntry
        refine ⟨⟨Path.join_ne_empty isReached isName, nodes entry isEntry⟩, ?_, ?_⟩
        · exact text.trans (Path.isPrefix_join isReached isName)
        · rw [Path.components_join isReached isName]
          exact components.trans (List.prefix_append _ _)
  · intro entry isEntry
    cases isNamed with
    | directory distinct names nodes =>
        have isName := names entry isEntry
        refine ⟨⟨Path.join_ne_empty isPath isName, nodes entry isEntry⟩, ?_, ?_⟩
        · rw [Path.join_eq_append isPath isName.isAbsolute_eq_false, String.toList_append]
          exact List.prefix_append _ _
        · rw [Path.components_join isPath isName]
          exact List.prefix_append _ _

end FileTree

namespace FileSystem

variable {system : FileSystem} {node : FileTree} {path name : String}
  {entries : List (String × FileTree)} {found : String × FileTree}

theorem fromRoot_append {front : List String} (isFront : front ≠ []) (rest : List String) :
    system.fromRoot (front ++ rest) = system.fromRoot front ++ rest := by
  obtain ⟨first, front, rfl⟩ := List.exists_cons_of_ne_nil isFront
  rw [fromRoot, fromRoot, List.cons_append, List.head?_cons, List.head?_cons]
  split
  · rfl
  · rw [List.append_assoc, List.cons_append]

theorem lookup_eq_ok_iff :
    system.lookup path = .ok node ↔
      path ≠ "" ∧
        FileTree.follow [] system.root (system.fromRoot (Path.segments path)) = .ok node := by
  rw [lookup]
  by_cases isNothing : path.isEmpty = true
  · rw [if_pos isNothing]
    simp [String.isEmpty_iff.mp isNothing]
  · rw [if_neg isNothing]
    simp only [String.isEmpty_iff] at isNothing
    simp [isNothing]

/-- A joined name leads from a directory to its entry. -/
theorem lookup_join (isDirectory : system.lookup path = .ok (.directory entries))
    (isName : Path.IsName name) (isChild : FileTree.child? name entries = some node) :
    system.lookup (Path.join path name) = .ok node := by
  obtain ⟨isPath, isFollowed⟩ := lookup_eq_ok_iff.mp isDirectory
  obtain ⟨first, pieces, idle, isIdle, isSegments, isJoined⟩ := Path.segments_join isPath isName
  refine lookup_eq_ok_iff.mpr ⟨Path.join_ne_empty isPath isName, ?_⟩
  rw [isSegments, fromRoot_append (List.cons_ne_nil _ _)] at isFollowed
  rw [isJoined, fromRoot_append (List.cons_ne_nil _ _)]
  apply FileTree.follow_append _ isFollowed
  intro outer current isNode
  rw [FileTree.follow_idle isIdle isNode]
  simp [FileTree.follow, isName.notEmpty, isName.notHere, isName.notUp, isChild]

theorem walkFrom_eq_ok_iff {reached : List (String × FileTree)} :
    system.walkFrom path = .ok reached ↔
      ∃ node, system.lookup path = .ok node ∧ node.walk path = reached := by
  rw [walkFrom]
  cases system.lookup path with
  | error error => simp [bind, Except.bind]
  | ok node => simp [bind, Except.bind, pure, Except.pure]

/-- A path that a walk reaches names what has been found there. -/
theorem lookup_of_mem_walk (isNamed : node.WellNamed) (isStart : system.lookup path = .ok node)
    (isFound : found ∈ node.walk path) :
    system.lookup found.1 = .ok found.2 ∧ found.2.WellNamed := by
  refine FileTree.walk_induction
    (fun path node => system.lookup path = .ok node ∧ node.WellNamed) ?_ ⟨isStart, isNamed⟩ isFound
  intro path entries isDirectory entry isEntry
  cases isDirectory.2 with
  | directory distinct names nodes =>
      have isChild := FileTree.child?_of_mem distinct isEntry
      exact ⟨lookup_join isDirectory.1 (names entry isEntry) isChild, nodes entry isEntry⟩

end FileSystem

theorem FileTree.WellNamed.lookup {system : FileSystem} {path : String} {node : FileTree}
    (isNamed : system.root.WellNamed) (isNode : system.lookup path = .ok node) :
    node.WellNamed := by
  obtain ⟨_, isFollowed⟩ := FileSystem.lookup_eq_ok_iff.mp isNode
  exact isNamed.follow (by simp) isFollowed

end StoreLint
