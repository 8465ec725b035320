import StoreLint.Proofs.Project.Walk

/-!
# The places that paths name

A tree without links has one place for each list of names, and a path leads to one of these
places whatever tree it is looked up in: names are added, and `..` takes the last one away.
So two paths that name something name the same thing if they have the same route.
-/

namespace StoreLint

open String

namespace Path

/-- The names of the place that pieces lead to from a place on. -/
def routeFrom (here : List String) : List String → List String
  | [] => here
  | piece :: pieces =>
      if piece == "" || piece == "." then routeFrom here pieces
      else if piece == ".." then routeFrom here.dropLast pieces
      else routeFrom (here ++ [piece]) pieces

/-- The pieces of the path of a directory, without an empty one after a separator at its end. -/
def pieces (path : String) : List String := (segments (join path "")).dropLast

/-- The path that is reached by names, one after the other. -/
def below (start : String) (names : List String) : String := names.foldl join start

variable {path name tail : String} {here names : List String}

theorem routeFrom_append {first last : List String} :
    routeFrom here (first ++ last) = routeFrom (routeFrom here first) last := by
  fun_induction routeFrom here first with
  | case1 here => rfl
  | case2 here piece pieces stays induction => simp [routeFrom, stays, induction]
  | case3 here piece pieces moves goesUp induction =>
      simp [routeFrom, eq_of_beq goesUp, induction]
  | case4 here piece pieces moves goesDown induction =>
      simp [routeFrom, moves, goesDown, induction]

theorem routeFrom_names (areNames : ∀ name ∈ names, IsName name) :
    routeFrom here names = here ++ names := by
  induction names generalizing here with
  | nil => simp [routeFrom]
  | cons name names induction =>
      have isName := areNames name List.mem_cons_self
      have later := @induction (here ++ [name])
        fun name isLater => areNames name (List.mem_cons_of_mem _ isLater)
      simp [routeFrom, isName.notEmpty, isName.notHere, isName.notUp, later]

theorem segments_ne_nil : segments path ≠ [] := by
  rw [segments_eq_map]
  exact mt List.map_eq_nil_iff.mp (List.splitOnP_ne_nil _ _)

theorem exists_front_of_pieces (isPath : path ≠ "") :
    ∃ front, (join path "").toList = front ++ ['/'] ∧
      (path.toList = front ∨ path.toList = front ++ ['/']) ∧
      pieces path = (front.splitOnP (· == '/')).map ofList := by
  obtain ⟨front, isJoined, isFront⟩ := toList_join isPath
  refine ⟨front, isJoined, isFront, ?_⟩
  rw [pieces, segments_eq_map, isJoined, List.splitOnP_append_cons front [] (by rfl)]
  simp

/-- What is joined to a path comes after its pieces. -/
theorem segments_join_tail (isPath : path ≠ "") (isRelative : isAbsolute tail = false) :
    segments (join path tail) = pieces path ++ segments tail := by
  obtain ⟨front, isJoined, _, isPieces⟩ := exists_front_of_pieces isPath
  rw [isPieces, segments_eq_map, segments_eq_map, join_eq_append isPath isRelative,
    String.toList_append, isJoined, List.append_assoc, List.singleton_append,
    List.splitOnP_append_cons front _ (by rfl), List.map_append]

theorem segments_eq_pieces_append (isPath : path ≠ "") :
    segments path = pieces path ∨ segments path = pieces path ++ [""] := by
  obtain ⟨front, _, isFront, isPieces⟩ := exists_front_of_pieces isPath
  rw [isPieces, segments_eq_map]
  cases isFront with
  | inl same => exact .inl (by rw [same])
  | inr ends => exact .inr (by rw [ends, List.splitOnP_append_cons front [] (by rfl)]; simp)

theorem pieces_ne_nil (isPath : path ≠ "") : pieces path ≠ [] := by
  obtain ⟨_, _, _, isPieces⟩ := exists_front_of_pieces isPath
  rw [isPieces]
  exact mt List.map_eq_nil_iff.mp (List.splitOnP_ne_nil _ _)

theorem isAbsolute_empty : isAbsolute "" = false := by
  apply Bool.eq_false_iff.mpr
  intro isRoot
  obtain ⟨rest, isText⟩ := isAbsolute_iff.mp isRoot
  cases isText

theorem join_empty : join "" tail = tail := by
  simp [join]

theorem pieces_empty : pieces "" = [] := by
  rw [pieces, join_empty, segments_eq_map]
  rfl

theorem routeFrom_pieces : routeFrom here (pieces path) = routeFrom here (segments path) := by
  by_cases isPath : path = ""
  · rw [isPath, pieces_empty, segments_eq_map]
    rfl
  · cases segments_eq_pieces_append isPath with
    | inl same => rw [same]
    | inr ends => rw [ends, routeFrom_append]; rfl

theorem IsName.segments_eq (isName : IsName name) : segments name = [name] := by
  rw [segments_eq_map, isName.splitOnP_eq]
  simp

theorem toList_join_tail (isPath : path ≠ "") (isRelative : isAbsolute tail = false) :
    path.toList <+: (join path tail).toList := by
  rw [join_eq_append isPath isRelative, String.toList_append]
  exact (isPrefix_join_nothing isPath).trans (List.prefix_append _ _)

theorem join_tail_ne_empty (isPath : path ≠ "") (isRelative : isAbsolute tail = false) :
    join path tail ≠ "" := by
  intro isEmpty
  have starts := toList_join_tail isPath isRelative
  rw [isEmpty] at starts
  exact isPath (String.toList_eq_nil_iff.mp (List.prefix_nil.mp starts))

theorem isAbsolute_join_tail (isPath : path ≠ "") (isRelative : isAbsolute tail = false) :
    isAbsolute (join path tail) = isAbsolute path := by
  obtain ⟨c, chars, isText⟩ := List.exists_cons_of_ne_nil (mt String.toList_eq_nil_iff.mp isPath)
  obtain ⟨more, isJoined⟩ := toList_join_tail isPath isRelative
  apply Bool.eq_iff_iff.mpr
  rw [isAbsolute_iff, isAbsolute_iff, ← isJoined, isText]
  simp

theorem segments_injective : Function.Injective segments := by
  intro left right same
  rw [segments_eq_map, segments_eq_map] at same
  have sameChars := List.map_injective_iff.mpr (fun _ _ => String.ofList_injective) same
  apply String.toList_injective
  rw [← @List.intercalate_splitOn _ left.toList _ _ '/',
    ← @List.intercalate_splitOn _ right.toList _ _ '/', List.splitOn, List.splitOn, sameChars]

theorem segments_join_name (isName : IsName name) :
    segments (join path name) = pieces path ++ [name] := by
  by_cases isPath : path = ""
  · rw [isPath, join_empty, isName.segments_eq, pieces_empty, List.nil_append]
  · rw [segments_join_tail isPath isName.isAbsolute_eq_false, isName.segments_eq]

theorem join_name_ne_empty (isName : IsName name) : join path name ≠ "" := by
  by_cases isEmpty : path = ""
  · rw [isEmpty, join_empty]
    exact isName.notEmpty
  · exact join_ne_empty isEmpty isName

theorem pieces_join (isName : IsName name) : pieces (join path name) = pieces path ++ [name] := by
  have isJoined := @segments_join_name path _ isName
  cases segments_eq_pieces_append (join_name_ne_empty isName) with
  | inl same => rw [← same, isJoined]
  | inr ends =>
      rw [isJoined] at ends
      exact absurd (List.append_inj_right' ends rfl) (by simpa using isName.notEmpty)

theorem IsName.pieces_eq (isName : IsName name) : pieces name = [name] := by
  have isJoined := @pieces_join "" _ isName
  rwa [join_empty, pieces_empty] at isJoined

theorem pieces_below (areNames : ∀ name ∈ names, IsName name) :
    pieces (below path names) = pieces path ++ names := by
  induction names generalizing path with
  | nil => simp [below]
  | cons name names induction =>
      have later := @induction (join path name)
        fun name isLater => areNames name (List.mem_cons_of_mem _ isLater)
      rw [pieces_join (areNames name List.mem_cons_self), List.append_assoc] at later
      exact later

theorem join_nothing_append {front : String} (isTail : tail ≠ "") (isFront : front ≠ "") :
    join (front ++ tail) "" = front ++ join tail "" := by
  have ends : (front ++ tail).endsWith "/" = tail.endsWith "/" := by
    apply Bool.eq_iff_iff.mpr
    have isEnd := mt String.toList_eq_nil_iff.mp isTail
    rw [endsWith_separator_iff, endsWith_separator_iff, String.toList_append,
      List.singleton_suffix_iff_getLast?_eq_some, List.singleton_suffix_iff_getLast?_eq_some,
      List.getLast?_append_of_ne_nil _ isEnd]
  have isText : (front ++ tail).isEmpty = false := by simp [isFront]
  have isTail : tail.isEmpty = false := by simpa using isTail
  rw [join, join, ends, isText, isTail, isAbsolute_empty]
  by_cases isEnd : tail.endsWith "/" = true
  · simp [isEnd]
  · simp [isEnd, String.append_assoc]

theorem join_join_nothing (isPath : path ≠ "") : join (join path "") "" = join path "" := by
  obtain ⟨front, isJoined, _⟩ := toList_join isPath
  have isText : (join path "").isEmpty = false := by
    simpa using join_tail_ne_empty isPath isAbsolute_empty
  have ends : (join path "").endsWith "/" = true :=
    endsWith_separator_iff.mpr ⟨front, isJoined.symm⟩
  rw [join, isAbsolute_empty, isText, ends]
  simp

theorem join_assoc (isPath : path ≠ "") (isTail : isAbsolute tail = false)
    (isName : isAbsolute name = false) :
    join (join path tail) name = join path (join tail name) := by
  have isJoined := join_tail_ne_empty isPath isTail
  rw [join_eq_append isJoined isName]
  by_cases isEmpty : tail = ""
  · rw [isEmpty, join_join_nothing isPath, join_empty, join_eq_append isPath isName]
  · have isFront : join path "" ≠ "" := join_tail_ne_empty isPath isAbsolute_empty
    have isBelow : isAbsolute (join tail name) = false := by
      rw [isAbsolute_join_tail isEmpty isName, isTail]
    rw [join_eq_append isPath isTail, join_nothing_append isEmpty isFront,
      join_eq_append isPath isBelow, join_eq_append isEmpty isName, String.append_assoc]

theorem pieces_join_tail (isTail : isAbsolute tail = false) :
    pieces (join path tail) = pieces path ++ pieces tail := by
  by_cases isPath : path = ""
  · rw [isPath, join_empty, pieces_empty, List.nil_append]
  · have isBelow : isAbsolute (join tail "") = false := by
      by_cases isEmpty : tail = ""
      · rw [isEmpty, join_empty, isAbsolute_empty]
      · rw [isAbsolute_join_tail isEmpty isAbsolute_empty, isTail]
    rw [pieces, join_assoc isPath isTail isAbsolute_empty, segments_join_tail isPath isBelow,
      List.dropLast_append_of_ne_nil segments_ne_nil]
    rfl

/-- A path starts at the root if its first piece is empty and is not the only one. -/
theorem isAbsolute_iff_segments {first : String} {rest : List String}
    (isSegments : segments path = first :: rest) :
    isAbsolute path = true ↔ first = "" ∧ rest ≠ [] := by
  rw [segments_eq_map] at isSegments
  rw [isAbsolute_iff]
  cases isText : path.toList with
  | nil =>
      rw [isText, List.splitOnP_nil] at isSegments
      simp at isSegments
      simp [isSegments]
  | cons c text =>
      rw [isText, List.splitOnP_cons_eq_if_modifyHead] at isSegments
      obtain ⟨next, later, isSplit⟩ :=
        List.exists_cons_of_ne_nil (List.splitOnP_ne_nil (· == '/') text)
      by_cases isMark : (c == '/') = true
      · rw [if_pos isMark, isSplit] at isSegments
        simp at isSegments isMark
        simp [isMark, ← isSegments]
      · rw [if_neg isMark, isSplit] at isSegments
        have isFirst : ofList (c :: next) = first := (List.cons.inj isSegments).1
        have notMark : '/' ≠ c := by
          intro same
          exact isMark (by simp [← same])
        simp [← isFirst, notMark]

theorem exists_segments_of_pieces (isPath : path ≠ "")
    (isFirst : Path.pieces path = first :: rest) :
    ∃ more, segments path = first :: more := by
  cases segments_eq_pieces_append isPath with
  | inl same => exact ⟨rest, same.trans isFirst⟩
  | inr ends => exact ⟨rest ++ [""], by rw [ends, isFirst, List.cons_append]⟩

theorem ne_empty_of_pieces (isFirst : Path.pieces path = first :: rest) : path ≠ "" := by
  intro isEmpty
  rw [isEmpty, pieces_empty] at isFirst
  cases isFirst

theorem relative_of_pieces {first : String} {rest : List String}
    (isFirst : Path.pieces path = first :: rest) (notEmpty : first ≠ "") :
    isAbsolute path = false := by
  obtain ⟨more, isSegments⟩ := exists_segments_of_pieces (ne_empty_of_pieces isFirst) isFirst
  apply Bool.eq_false_iff.mpr
  intro isRoot
  exact notEmpty ((isAbsolute_iff_segments isSegments).mp isRoot).1

theorem isAbsolute_of_pieces {rest : List String} (isFirst : Path.pieces path = "" :: rest) :
    isAbsolute path = true := by
  have isPath := ne_empty_of_pieces isFirst
  obtain ⟨more, isSegments⟩ := exists_segments_of_pieces isPath isFirst
  refine (isAbsolute_iff_segments isSegments).mpr ⟨rfl, ?_⟩
  intro isAlone
  apply isPath
  apply segments_injective
  rw [isSegments, isAlone, segments_eq_map]
  rfl

/-- A path starts at the root if its pieces begin with an empty one. -/
theorem isAbsolute_iff_pieces :
    isAbsolute path = true ↔ (Path.pieces path).head? = some "" := by
  constructor
  · intro isRoot
    by_contra isRelative
    cases isPieces : Path.pieces path with
    | nil =>
        by_cases isPath : path = ""
        · rw [isPath, isAbsolute_empty] at isRoot
          cases isRoot
        · exact pieces_ne_nil isPath isPieces
    | cons first rest =>
        have notEmpty : first ≠ "" := by simpa [isPieces] using isRelative
        rw [relative_of_pieces isPieces notEmpty] at isRoot
        cases isRoot
  · intro isRoot
    obtain ⟨rest, isFirst⟩ := List.head?_eq_some_iff.mp isRoot
    exact isAbsolute_of_pieces isFirst

/-- The pieces of a path that does not start at the root do not begin with an empty one. -/
theorem head?_pieces_ne (isRelative : isAbsolute path = false) :
    (pieces path).head? ≠ some "" := by
  intro isRoot
  rw [isAbsolute_iff_pieces.mpr isRoot] at isRelative
  cases isRelative

/-- A path whose pieces are names does not start at the root. -/
theorem isAbsolute_eq_false_of_pieces (areNames : ∀ piece ∈ pieces path, IsName piece) :
    isAbsolute path = false := by
  apply Bool.eq_false_iff.mpr
  intro isRoot
  have isPiece := List.mem_of_head? (isAbsolute_iff_pieces.mp isRoot)
  exact (areNames "" isPiece).notEmpty rfl

end Path

namespace FileTree

def node? (tree : FileTree) : List String → Option FileTree
  | [] => some tree
  | name :: names =>
      match tree with
      | .file _ => none
      | .directory entries => (child? name entries).bind fun node => node.node? names

/-- The directories `outer`, innermost first, are those on the way to the node at a place. -/
inductive Stacked (root : FileTree) : List FileTree → FileTree → List String → Prop where
  | root : Stacked root [] root []
  | enter {outer : List FileTree} {entries : List (String × FileTree)} {here : List String}
      {name : String} {node : FileTree} (isOuter : Stacked root outer (.directory entries) here)
      (isChild : child? name entries = some node) :
      Stacked root (.directory entries :: outer) node (here ++ [name])

variable {tree root node current : FileTree} {outer : List FileTree} {path : String}
  {here names pieces : List String}

theorem node?_append {first last : List String} :
    tree.node? (first ++ last) = (tree.node? first).bind fun node => node.node? last := by
  induction first generalizing tree with
  | nil => rfl
  | cons name names induction =>
      cases tree with
      | file content => rfl
      | directory entries =>
          rw [List.cons_append, node?, node?]
          cases child? name entries with
          | none => rfl
          | some node => exact induction

namespace Stacked

theorem node? (isStacked : Stacked root outer current here) : root.node? here = some current := by
  induction isStacked with
  | root => rfl
  | enter isOuter isChild induction =>
      rw [node?_append, induction]
      simp [FileTree.node?, isChild]

/-- Pieces that can be followed lead to the place of their route. -/
theorem follow (isStacked : Stacked root outer current here)
    (isNode : FileTree.follow outer current pieces = .ok node) :
    ∃ outer, Stacked root outer node (Path.routeFrom here pieces) := by
  fun_induction FileTree.follow outer current pieces generalizing here with
  | case1 outer current =>
      cases isNode
      exact ⟨outer, isStacked⟩
  | case2 outer piece pieces content => cases isNode
  | case3 outer piece pieces entries stays induction =>
      rw [Path.routeFrom, if_pos stays]
      exact induction isStacked isNode
  | case4 piece pieces entries moves goesUp induction =>
      rw [Path.routeFrom, if_neg moves, if_pos goesUp]
      cases isStacked with
      | root => exact induction .root isNode
  | case5 piece pieces entries moves goesUp parent outer induction =>
      rw [Path.routeFrom, if_neg moves, if_pos goesUp]
      cases isStacked with
      | enter isOuter isChild =>
          rw [List.dropLast_concat]
          exact induction isOuter isNode
  | case6 outer piece pieces entries moves goesDown child isChild induction =>
      rw [Path.routeFrom, if_neg moves, if_neg goesDown]
      exact induction (isStacked.enter isChild) isNode
  | case7 outer piece pieces entries moves goesDown isMissing => cases isNode

end Stacked

/-- Pieces that cannot be followed stop all that come after them, and others hand over to them. -/
theorem follow_append_cases (outer : List FileTree) (current : FileTree) (pieces : List String) :
    (∃ error, ∀ more, follow outer current (pieces ++ more) = .error error) ∨
      ∃ inner node, follow outer current pieces = .ok node ∧
        ∀ more, follow outer current (pieces ++ more) = follow inner node more := by
  fun_induction follow outer current pieces with
  | case1 outer current => exact .inr ⟨outer, current, rfl, fun more => rfl⟩
  | case2 outer piece pieces content => exact .inl ⟨_, fun more => rfl⟩
  | case3 outer piece pieces entries stays induction =>
      simpa only [List.cons_append, follow, if_pos stays] using induction
  | case4 piece pieces entries moves goesUp induction =>
      simpa only [List.cons_append, follow, if_neg moves, if_pos goesUp] using induction
  | case5 piece pieces entries moves goesUp parent outer induction =>
      simpa only [List.cons_append, follow, if_neg moves, if_pos goesUp] using induction
  | case6 outer piece pieces entries moves goesDown child isChild induction =>
      simpa only [List.cons_append, follow, if_neg moves, if_neg goesDown, isChild] using induction
  | case7 outer piece pieces entries moves goesDown isMissing =>
      refine .inl ⟨.notFound, fun more => ?_⟩
      simp only [List.cons_append, follow, if_neg moves, if_neg goesDown, isMissing]

/-- On the way to a directory there are only directories. -/
theorem follow_prefix {front : List String} {entries : List (String × FileTree)}
    (isDirectory : follow outer current pieces = .ok (.directory entries))
    (isFront : front <+: pieces) :
    ∃ inner around, follow outer current front = .ok (.directory around) ∧
      ∀ more, follow outer current (front ++ more) = follow inner (.directory around) more := by
  obtain ⟨rest, rfl⟩ := isFront
  cases follow_append_cases outer current front with
  | inl stops =>
      obtain ⟨error, stops⟩ := stops
      rw [stops] at isDirectory
      cases isDirectory
  | inr leads =>
      obtain ⟨inner, node, isNode, leads⟩ := leads
      rw [leads] at isDirectory
      cases node with
      | file content =>
          cases rest with
          | nil => cases isDirectory
          | cons piece rest => cases isDirectory
      | directory around => exact ⟨inner, around, isNode, leads⟩

theorem WellNamed.node? (isNamed : tree.WellNamed) (isNode : tree.node? names = some node) :
    node.WellNamed ∧ ∀ name ∈ names, Path.IsName name := by
  induction names generalizing tree with
  | nil =>
      cases isNode
      exact ⟨isNamed, by simp⟩
  | cons name names induction =>
      cases isNamed with
      | file content => cases isNode
      | directory distinct areNames nodes =>
          obtain ⟨child, isChild, isBelow⟩ := Option.bind_eq_some_iff.mp isNode
          have isEntry := mem_of_child? isChild
          obtain ⟨isNamed, areBelow⟩ := induction (nodes _ isEntry) isBelow
          exact ⟨isNamed, List.forall_mem_cons.mpr ⟨areNames _ isEntry, areBelow⟩⟩

/-- A walk reaches each place below its start once, by its names. -/
theorem mem_walk_iff_node? (isNamed : tree.WellNamed) {start : String} :
    (path, node) ∈ tree.walk start ↔
      ∃ names, tree.node? names = some node ∧ path = Path.below start names := by
  constructor
  · intro isReached
    refine walk_induction (fun path node =>
      ∃ names, tree.node? names = some node ∧ path = Path.below start names) ?_ ?_ isReached
    · intro path entries isDirectory entry isEntry
      obtain ⟨names, isNode, rfl⟩ := isDirectory
      cases (isNamed.node? isNode).1 with
      | directory distinct areNames nodes =>
          refine ⟨names ++ [entry.1], ?_, by simp [Path.below]⟩
          rw [node?_append, isNode]
          simp [FileTree.node?, child?_of_mem distinct isEntry]
    · exact ⟨[], rfl, rfl⟩
  · intro isPlace
    obtain ⟨names, isNode, rfl⟩ := isPlace
    induction names generalizing tree start with
    | nil =>
        cases isNode
        cases node with
        | file content => simp [walk, Path.below]
        | directory entries => simp [walk, Path.below]
    | cons name names induction =>
        cases isNamed with
        | file content => cases isNode
        | directory distinct areNames nodes =>
            obtain ⟨child, isChild, isBelow⟩ := Option.bind_eq_some_iff.mp isNode
            have isEntry := mem_of_child? isChild
            apply List.mem_cons_of_mem
            exact mem_walkEntries_iff.mpr ⟨_, isEntry, induction (nodes _ isEntry) isBelow⟩

end FileTree

namespace FileSystem

variable {system : FileSystem} {path name tail : String} {names : List String}

/-- The names of the place that a path leads to. -/
def route (system : FileSystem) (path : String) : List String :=
  Path.routeFrom [] (system.fromRoot (Path.pieces path))

theorem fromRoot_segments (isPath : path ≠ "") :
    system.fromRoot (Path.segments path) = system.fromRoot (Path.pieces path) ∨
      system.fromRoot (Path.segments path) = system.fromRoot (Path.pieces path) ++ [""] := by
  cases Path.segments_eq_pieces_append isPath with
  | inl same => exact .inl (by rw [same])
  | inr ends => exact .inr (by rw [ends, fromRoot_append (Path.pieces_ne_nil isPath)])

theorem routeFrom_segments (isPath : path ≠ "") :
    Path.routeFrom [] (system.fromRoot (Path.segments path)) = system.route path := by
  cases @fromRoot_segments system path isPath with
  | inl same => rw [route, same]
  | inr ends => rw [route, ends, Path.routeFrom_append]; rfl

theorem fromRoot_of_relative {pieces : List String} (isRelative : pieces.head? ≠ some "") :
    system.fromRoot pieces = system.current ++ pieces := by
  rw [fromRoot, if_neg (by simpa using isRelative)]

theorem fromRoot_pieces_join (isRelative : Path.isAbsolute tail = false) :
    system.fromRoot (Path.pieces (Path.join path tail)) =
      system.fromRoot (Path.pieces path) ++ Path.pieces tail := by
  rw [Path.pieces_join_tail isRelative]
  by_cases isPath : path = ""
  · rw [isPath, Path.pieces_empty, List.nil_append,
      fromRoot_of_relative (Path.head?_pieces_ne isRelative), fromRoot_of_relative (by simp),
      List.append_nil]
  · exact fromRoot_append (Path.pieces_ne_nil isPath) _

theorem route_join_tail (isRelative : Path.isAbsolute tail = false) :
    system.route (Path.join path tail) = Path.routeFrom (system.route path) (Path.pieces tail) := by
  rw [route, fromRoot_pieces_join isRelative, Path.routeFrom_append, route]

theorem route_below (areNames : ∀ name ∈ names, Path.IsName name) :
    system.route (Path.below path names) = system.route path ++ names := by
  induction names generalizing path with
  | nil => simp [Path.below]
  | cons name names induction =>
      have isName := areNames name List.mem_cons_self
      have later := @induction (Path.join path name)
        fun name isLater => areNames name (List.mem_cons_of_mem _ isLater)
      rw [route_join_tail isName.isAbsolute_eq_false, Path.routeFrom_pieces, isName.segments_eq,
        Path.routeFrom_names (by simpa using isName), List.append_assoc] at later
      exact later

/-- A path names the node at the place that it leads to. -/
theorem node?_route {node : FileTree} (isNode : system.lookup path = .ok node) :
    system.root.node? (system.route path) = some node := by
  obtain ⟨isPath, isFollowed⟩ := lookup_eq_ok_iff.mp isNode
  obtain ⟨outer, isStacked⟩ := FileTree.Stacked.root.follow isFollowed
  rw [← routeFrom_segments isPath]
  exact isStacked.node?

end FileSystem

end StoreLint
