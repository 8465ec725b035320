import StoreLint.Glob.Expand
import StoreLint.Proofs.Project.Depth

/-!
# How expanded paths are written

The expansion of a pattern starts at the root or at the current directory and adds one piece
after the other.  The first pieces that stay in the current directory are not written, and
neither are empty ones, but for one at the start, which is the root.  An empty piece that
comes after pieces that stay is another matter, as the empty text is no path.
-/

namespace StoreLint

namespace Path

/-- Pieces that start at the root or lead away from the current directory. -/
def Leads (pieces : List String) : Prop :=
  pieces.head? = some "" ∨ ∃ piece ∈ pieces, isStep piece = true

/-- Pieces that can be written one after the other. -/
structure Writable (pieces : List String) : Prop where
  noSeparator : ∀ piece ∈ pieces, '/' ∉ piece.toList
  /-- An empty piece comes first or after pieces that lead somewhere. -/
  opens : ∀ here rest, pieces = here ++ "" :: rest → here = [] ∨ Leads here

variable {path piece first : String} {pieces front rest : List String}

theorem segments_of_noSeparator (noSeparator : '/' ∉ piece.toList) : segments piece = [piece] := by
  have isSingle : piece.toList.splitOnP (· == '/') = [piece.toList] := by
    apply List.splitOnP_eq_singleton
    intro c isChar
    apply beq_false_of_ne
    intro isMark
    exact noSeparator (isMark ▸ isChar)
  rw [segments_eq_map, isSingle]
  simp

theorem isAbsolute_of_noSeparator (noSeparator : '/' ∉ piece.toList) :
    isAbsolute piece = false := by
  apply Bool.eq_false_iff.mpr
  intro isAbsolute
  have starts := (isAbsolute_iff_segments (segments_of_noSeparator noSeparator)).mp isAbsolute
  exact starts.2 rfl

theorem pieces_of_noSeparator (noSeparator : '/' ∉ piece.toList) :
    Path.pieces piece = [piece].filter (· != "") := by
  by_cases isEmpty : piece = ""
  · rw [isEmpty, pieces_empty]
    rfl
  · have isSegments := segments_of_noSeparator noSeparator
    cases segments_eq_pieces_append isEmpty with
    | inl same => rw [← same, isSegments]; simp [isEmpty]
    | inr ends =>
        rw [isSegments] at ends
        exact absurd (@List.append_inj_right' _ [] _ _ _ ends rfl) (by simpa using isEmpty)

theorem pieces_here : Path.pieces "." = ["."] := by
  rw [pieces_of_noSeparator (by simp)]
  rfl

theorem IsName.isStep_eq_true (isName : IsName piece) : isStep piece = true := by
  simp [isStep, isName.notEmpty, isName.notHere]

theorem lead_of_pieces (isFirst : Path.pieces path = first :: rest) :
    lead path = if first == "" then ["/"] else if first == "." then ["."] else [] := by
  obtain ⟨more, isSegments⟩ := exists_segments_of_pieces (ne_empty_of_pieces isFirst) isFirst
  by_cases isRoot : first = ""
  · rw [isRoot] at isFirst ⊢
    rw [lead, isAbsolute_of_pieces isFirst]
    rfl
  · rw [lead, relative_of_pieces isFirst isRoot, isSegments]
    simp [isRoot]

theorem components_ne_here (isFirst : Path.pieces path = first :: rest) (notHere : first ≠ ".") :
    components path ≠ ["."] := by
  rw [components_eq_lead_append, lead_of_pieces isFirst, ← filter_pieces, isFirst]
  by_cases isRoot : first = ""
  · simp [isRoot]
  · have leads : isStep first = true := by simp [isStep, isRoot, notHere]
    simp [isRoot, notHere, leads]

theorem pieces_root : Path.pieces "/" = [""] := by
  rw [Path.pieces, segments_eq_map]
  decide +kernel

theorem Leads.append (leads : Leads front) (rest : List String) : Leads (front ++ rest) := by
  cases leads with
  | inl isRoot =>
      obtain ⟨more, rfl⟩ := List.head?_eq_some_iff.mp isRoot
      exact .inl rfl
  | inr leads =>
      obtain ⟨piece, isPiece, leads⟩ := leads
      exact .inr ⟨piece, List.mem_append_left _ isPiece, leads⟩

theorem not_leads_here (areHere : ∀ piece ∈ pieces, piece = ".") : ¬Leads pieces := by
  intro leads
  cases leads with
  | inl isRoot =>
      obtain ⟨more, rfl⟩ := List.head?_eq_some_iff.mp isRoot
      exact absurd (areHere "" List.mem_cons_self) (by simp)
  | inr leads =>
      obtain ⟨piece, isPiece, leads⟩ := leads
      rw [areHere piece isPiece] at leads
      cases leads

namespace Writable

theorem nil : Writable [] := ⟨by simp, by simp⟩

theorem root : Writable [""] := by
  constructor
  · simp
  · intro here rest isRoot
    cases here with
    | nil => exact .inl rfl
    | cons first here => simp at isRoot

theorem of_append (writable : Writable (front ++ rest)) : Writable front := by
  constructor
  · intro piece isPiece
    exact writable.noSeparator piece (List.mem_append_left _ isPiece)
  · intro here more isFront
    apply writable.opens here (more ++ rest)
    rw [isFront, List.append_assoc, List.cons_append]

theorem append (writable : Writable front) (noSeparator : ∀ piece ∈ rest, '/' ∉ piece.toList)
    (opens : Leads front ∨ "" ∉ rest) : Writable (front ++ rest) := by
  constructor
  · exact List.forall_mem_append.mpr ⟨writable.noSeparator, noSeparator⟩
  · intro here more isAll
    cases List.append_eq_append_iff.mp isAll with
    | inl isLater =>
        obtain ⟨between, rfl, isRest⟩ := isLater
        cases opens with
        | inl leads => exact .inr (leads.append between)
        | inr noEmpty => exact absurd (isRest ▸ by simp) noEmpty
    | inr isEarlier =>
        obtain ⟨between, isFront, isRest⟩ := isEarlier
        cases between with
        | nil =>
            rw [List.append_nil] at isFront
            rw [List.nil_append] at isRest
            cases opens with
            | inl leads => exact .inr (isFront ▸ leads)
            | inr noEmpty => exact absurd (isRest ▸ by simp) noEmpty
        | cons piece between =>
            cases (List.cons.inj isRest).1
            exact writable.opens here between isFront

theorem append_names (writable : Writable front) (areNames : ∀ name ∈ rest, IsName name) :
    Writable (front ++ rest) := by
  apply writable.append
  · intro name isName
    exact (areNames name isName).noSeparator
  · right
    intro isEmpty
    exact (areNames "" isEmpty).notEmpty rfl

end Writable

end Path

namespace FileTree

variable {outer : List FileTree} {current : FileTree} {front more : List String}

/-- An empty piece in the middle of a path changes nothing. -/
theorem follow_empty (isMore : more ≠ []) :
    follow outer current (front ++ "" :: more) = follow outer current (front ++ more) := by
  cases follow_append_cases outer current front with
  | inl stops =>
      obtain ⟨error, stops⟩ := stops
      rw [stops, stops]
  | inr leads =>
      obtain ⟨inner, node, _, leads⟩ := leads
      obtain ⟨piece, more, rfl⟩ := List.exists_cons_of_ne_nil isMore
      rw [leads, leads]
      cases node with
      | file content => rfl
      | directory entries => simp [follow]

theorem follow_here_append {here : List String} {entries : List (String × FileTree)}
    (areHere : ∀ piece ∈ here, piece = ".") :
    follow outer (.directory entries) (here ++ more) = follow outer (.directory entries) more := by
  induction here with
  | nil => rfl
  | cons piece here induction =>
      rw [List.cons_append, areHere piece List.mem_cons_self]
      apply induction
      intro piece isLater
      exact areHere piece (List.mem_cons_of_mem _ isLater)

end FileTree

namespace FileSystem

/-- The pieces start at the root, or the current directory is there. -/
def IsOpen (system : FileSystem) (pieces : List String) : Prop :=
  pieces.head? = some "" ∨
    ∃ entries, FileTree.follow [] system.root system.current = .ok (.directory entries)

variable {system : FileSystem} {path : String} {node : FileTree} {pieces rest : List String}

theorem IsOpen.append (isOpen : system.IsOpen pieces) (rest : List String) :
    system.IsOpen (pieces ++ rest) := by
  cases isOpen with
  | inl isRoot =>
      obtain ⟨more, rfl⟩ := List.head?_eq_some_iff.mp isRoot
      exact .inl rfl
  | inr isDirectory => exact .inr isDirectory

theorem IsOpen.of_relative (isOpen : system.IsOpen pieces) (isRelative : pieces.head? ≠ some "")
    (others : List String) : system.IsOpen others := by
  cases isOpen with
  | inl isRoot => exact absurd isRoot isRelative
  | inr isDirectory => exact .inr isDirectory

theorem IsOpen.of_append (isOpen : system.IsOpen (pieces ++ rest))
    (isStart : pieces ≠ [] ∨ rest.head? ≠ some "") : system.IsOpen pieces := by
  cases pieces with
  | nil => exact isOpen.of_relative (by simpa using isStart) []
  | cons first pieces => exact isOpen

theorem fromRoot_append_of_start (isStart : pieces ≠ [] ∨ rest.head? ≠ some "") :
    system.fromRoot (pieces ++ rest) = system.fromRoot pieces ++ rest := by
  cases pieces with
  | nil =>
      have isRelative : rest.head? ≠ some "" := by simpa using isStart
      rw [List.nil_append, fromRoot_of_relative isRelative, fromRoot_of_relative (by simp),
        List.append_nil]
  | cons first pieces => exact fromRoot_append (by simp) rest

/-- A path that names something starts in a directory. -/
theorem isOpen_pieces (isNode : system.lookup path = .ok node) :
    system.IsOpen (Path.pieces path) := by
  obtain ⟨isPath, isFollowed⟩ := lookup_eq_ok_iff.mp isNode
  by_cases isRoot : (Path.pieces path).head? = some ""
  · exact .inl isRoot
  · obtain ⟨first, rest, isFirst⟩ := List.exists_cons_of_ne_nil (Path.pieces_ne_nil isPath)
    obtain ⟨more, isSegments⟩ := Path.exists_segments_of_pieces isPath isFirst
    have isRelative : (first :: more).head? ≠ some "" := by simpa [isFirst] using isRoot
    rw [isSegments, fromRoot_of_relative isRelative] at isFollowed
    cases FileTree.follow_append_cases [] system.root system.current with
    | inl stops =>
        obtain ⟨error, stops⟩ := stops
        rw [stops] at isFollowed
        cases isFollowed
    | inr leads =>
        obtain ⟨outer, found, isFound, leads⟩ := leads
        rw [leads] at isFollowed
        cases found with
        | file content => cases isFollowed
        | directory entries => exact .inr ⟨entries, isFound⟩

end FileSystem

namespace Glob

/-- The path that is written by adding pieces to the root or to the current directory. -/
def spell (pieces : List String) : String :=
  if pieces.head? == some "" then pieces.tail.foldl childPath "/"
  else pieces.foldl childPath "."

variable {system : FileSystem} {pieces : List String} {piece : String}

theorem spell_of_relative (isRelative : pieces.head? ≠ some "") :
    spell pieces = pieces.foldl childPath "." := by
  rw [spell, if_neg (by simpa using isRelative)]

theorem spell_of_root : spell ("" :: pieces) = pieces.foldl childPath "/" := rfl

theorem childPath_spell (isMore : pieces ≠ [] ∨ piece ≠ "") :
    childPath (spell pieces) piece = spell (pieces ++ [piece]) := by
  by_cases isRoot : pieces.head? = some ""
  · obtain ⟨rest, rfl⟩ := List.head?_eq_some_iff.mp isRoot
    rw [List.cons_append, spell_of_root, spell_of_root, List.foldl_append]
    rfl
  · have isRelative : (pieces ++ [piece]).head? ≠ some "" := by
      cases pieces with
      | nil => simpa using isMore
      | cons first pieces => exact isRoot
    rw [spell_of_relative isRoot, spell_of_relative isRelative, List.foldl_append]
    rfl

theorem childPath_eq_join {path first : String} {rest : List String}
    (isFirst : Path.pieces path = first :: rest) (notHere : first ≠ ".")
    (name : String) : childPath path name = Path.join path name := by
  rw [childPath, if_neg (by simpa using Path.components_ne_here isFirst notHere)]

theorem childPath_here (name : String) : childPath "." name = name := by
  have isHere : Path.components "." = ["."] := by
    rw [Path.components_eq_lead_append, Path.lead_of_pieces Path.pieces_here,
      ← Path.filter_pieces, Path.pieces_here]
    rfl
  rw [childPath, isHere]
  rfl

/-- Either all pieces stay in the current directory, or the path is written from the first one on
that does not. -/
theorem spell_cases (writable : Path.Writable pieces) :
    (spell pieces = "." ∧ ∀ piece ∈ pieces, piece = ".") ∨
      ∃ here first rest, pieces = here ++ first :: rest ∧ (∀ piece ∈ here, piece = ".") ∧
        first ≠ "." ∧ (first = "" → here = []) ∧
        Path.pieces (spell pieces) = first :: rest.filter (· != "") := by
  induction pieces using List.reverseRecOn with
  | nil => exact .inl ⟨rfl, by simp⟩
  | append_singleton pieces piece induction =>
      have noSeparator := writable.noSeparator piece (by simp)
      by_cases isMore : pieces ≠ [] ∨ piece ≠ ""
      · rw [← childPath_spell isMore]
        cases induction writable.of_append with
        | inl isHere =>
            rw [isHere.1, childPath_here]
            by_cases stays : piece = "."
            · refine .inl ⟨stays, ?_⟩
              intro other isOther
              cases List.mem_append.mp isOther with
              | inl isFront => exact isHere.2 other isFront
              | inr isLast => exact (List.mem_singleton.mp isLast).trans stays
            · have notEmpty : piece ≠ "" := by
                intro isEmpty
                cases writable.opens pieces [] (by rw [isEmpty]) with
                | inl isNothing => exact isMore.elim (· isNothing) (· isEmpty)
                | inr leads => exact Path.not_leads_here isHere.2 leads
              refine .inr ⟨pieces, piece, [], rfl, isHere.2, stays, (absurd · notEmpty), ?_⟩
              rw [Path.pieces_of_noSeparator noSeparator]
              simp [notEmpty]
        | inr isLower =>
            obtain ⟨here, first, rest, rfl, areHere, notHere, isRoot, isFirst⟩ := isLower
            refine .inr ⟨here, first, rest ++ [piece], by simp, areHere, notHere, isRoot, ?_⟩
            rw [childPath_eq_join isFirst notHere,
              Path.pieces_join_tail (Path.isAbsolute_of_noSeparator noSeparator), isFirst,
              Path.pieces_of_noSeparator noSeparator, List.filter_append, List.cons_append]
      · simp only [ne_eq, not_or, not_not] at isMore
        obtain ⟨rfl, rfl⟩ := isMore
        exact .inr ⟨[], "", [], rfl, by simp, by simp, fun _ => rfl, Path.pieces_root⟩

theorem steps_spell (writable : Path.Writable pieces) :
    Path.steps (spell pieces) = pieces.filter Path.isStep := by
  have idle : ∀ here : List String, (∀ piece ∈ here, piece = ".") →
      here.filter Path.isStep = [] := by
    intro here areHere
    apply List.filter_eq_nil_iff.mpr
    intro piece isPiece
    simp [areHere piece isPiece]
  have steps : ∀ rest : List String,
      (rest.filter (· != "")).filter Path.isStep = rest.filter Path.isStep := by
    intro rest
    rw [List.filter_filter]
    congr 1
    funext piece
    cases isEmpty : piece == "" with
    | true => simp [Path.isStep, bne, isEmpty]
    | false => simp [Path.isStep, bne, isEmpty]
  rw [← Path.filter_pieces]
  cases spell_cases writable with
  | inl isHere =>
      rw [isHere.1, idle pieces isHere.2, Path.filter_pieces, Path.steps, Path.segments_eq_map]
      rfl
  | inr isLower =>
      obtain ⟨here, first, rest, rfl, areHere, _, _, isFirst⟩ := isLower
      rw [isFirst, List.filter_append, idle here areHere, List.nil_append, List.filter_cons,
        List.filter_cons, steps]

/-- What is written for pieces starts at the root just if they do. -/
theorem exists_pieces_spell (writable : Path.Writable pieces) :
    ∃ first rest, Path.pieces (spell pieces) = first :: rest ∧
      (first = "" ↔ pieces.head? = some "") := by
  cases spell_cases writable with
  | inl isHere =>
      refine ⟨".", [], by rw [isHere.1, Path.pieces_here], ?_⟩
      have isRelative : pieces.head? ≠ some "" := by
        intro isRoot
        exact Path.not_leads_here isHere.2 (.inl isRoot)
      simp [isRelative]
  | inr isLower =>
      obtain ⟨here, first, rest, rfl, areHere, _, isRoot, isFirst⟩ := isLower
      refine ⟨first, _, isFirst, ?_⟩
      cases here with
      | nil => simp
      | cons piece here =>
          have notEmpty : first ≠ "" := by
            intro isEmpty
            cases isRoot isEmpty
          simp [areHere piece List.mem_cons_self, notEmpty]

theorem follow_filter_append {outer : List FileTree} {current : FileTree}
    (front rest : List String) {more : List String} (isMore : more ≠ []) :
    FileTree.follow outer current (front ++ (rest.filter (· != "") ++ more)) =
      FileTree.follow outer current (front ++ (rest ++ more)) := by
  induction rest generalizing front with
  | nil => rfl
  | cons piece rest induction =>
      by_cases isEmpty : piece = ""
      · rw [isEmpty, List.filter_cons_of_neg (by simp), induction, List.cons_append,
          FileTree.follow_empty (by simp [isMore])]
      · have later := induction (front ++ [piece])
        rw [List.append_assoc, List.append_assoc] at later
        rw [List.filter_cons_of_pos (by simpa using isEmpty)]
        exact later

/-- Pieces that stay in the current directory need not be written. -/
theorem follow_here (isOpen : system.IsOpen pieces) (areHere : ∀ piece ∈ pieces, piece = ".")
    (more : List String) :
    FileTree.follow [] system.root (system.current ++ (pieces ++ more)) =
      FileTree.follow [] system.root (system.current ++ more) := by
  cases isOpen with
  | inl isRoot => exact absurd (.inl isRoot) (Path.not_leads_here areHere)
  | inr isDirectory =>
      obtain ⟨entries, isDirectory⟩ := isDirectory
      obtain ⟨_, around, isAround, leads⟩ := FileTree.follow_prefix isDirectory (List.prefix_refl _)
      rw [leads, leads, FileTree.follow_here_append areHere]

theorem head?_ne_of_here {here : List String} (areHere : ∀ piece ∈ here, piece = ".")
    (isRelative : pieces.head? ≠ some "") : (here ++ pieces).head? ≠ some "" := by
  cases here with
  | nil => exact isRelative
  | cons first here => simp [areHere first List.mem_cons_self]

/-- The pieces that are written lead to the same thing. -/
theorem follow_pieces_spell (isOpen : system.IsOpen pieces) (writable : Path.Writable pieces)
    {more : List String} (isMore : more ≠ []) :
    FileTree.follow [] system.root (system.fromRoot (Path.pieces (spell pieces)) ++ more) =
      FileTree.follow [] system.root (system.fromRoot pieces ++ more) := by
  cases spell_cases writable with
  | inl isHere =>
      have isRelative : pieces.head? ≠ some "" := by
        simpa using @head?_ne_of_here [] _ isHere.2 (by simp)
      have isOpenHere := isOpen.of_relative isRelative ["."]
      rw [isHere.1, Path.pieces_here, FileSystem.fromRoot_of_relative (by simp),
        FileSystem.fromRoot_of_relative isRelative, List.append_assoc, List.append_assoc,
        follow_here isOpen isHere.2, follow_here isOpenHere (by simp)]
  | inr isLower =>
      obtain ⟨here, first, rest, rfl, areHere, _, isRoot, isFirst⟩ := isLower
      rw [isFirst]
      by_cases isEmpty : first = ""
      · rw [isRoot isEmpty, isEmpty]
        exact follow_filter_append [""] rest isMore
      · have notEmpty : ∀ rest : List String, (first :: rest).head? ≠ some "" := by
          simp [isEmpty]
        have isRelative := head?_ne_of_here areHere (notEmpty rest)
        have isHere := follow_here (isOpen.of_relative isRelative here) areHere
        rw [FileSystem.fromRoot_of_relative (notEmpty _),
          FileSystem.fromRoot_of_relative isRelative, List.append_assoc, List.append_assoc,
          List.append_assoc, isHere]
        have isFiltered :=
          @follow_filter_append [] system.root (system.current ++ [first]) rest _ isMore
        rw [List.append_assoc, List.append_assoc] at isFiltered
        exact isFiltered

/-- What is written for pieces names what they lead to. -/
theorem lookup_spell (isOpen : system.IsOpen pieces) (writable : Path.Writable pieces) :
    system.lookup (spell pieces) = FileTree.follow [] system.root (system.fromRoot pieces) := by
  cases List.eq_nil_or_concat' pieces with
  | inl isNothing =>
      have isHere := follow_here (isOpen.append ["."]) (by simp [isNothing]) []
      rw [isNothing, spell_of_relative (by simp), List.foldl_nil,
        FileSystem.lookup_of_ne_empty (by simp), Path.segments_of_noSeparator (by simp),
        FileSystem.fromRoot_of_relative (by simp), FileSystem.fromRoot_of_relative (by simp)]
      simpa [isNothing] using isHere
  | inr isLonger =>
      obtain ⟨front, piece, rfl⟩ := isLonger
      have noSeparator := writable.noSeparator piece (by simp)
      have isRelative := Path.isAbsolute_of_noSeparator noSeparator
      have isSegments := Path.segments_of_noSeparator noSeparator
      by_cases isMore : front ≠ [] ∨ piece ≠ ""
      · rw [← childPath_spell isMore]
        cases spell_cases writable.of_append with
        | inl isHere =>
            have notEmpty : piece ≠ "" := by
              intro isEmpty
              cases writable.opens front [] (by rw [isEmpty]) with
              | inl isNothing => exact isMore.elim (· isNothing) (· isEmpty)
              | inr leads => exact Path.not_leads_here isHere.2 leads
            have isLast : [piece].head? ≠ some "" := by simpa using notEmpty
            have isFront := head?_ne_of_here isHere.2 isLast
            rw [isHere.1, childPath_here, FileSystem.lookup_of_ne_empty notEmpty, isSegments,
              FileSystem.fromRoot_of_relative isLast,
              FileSystem.fromRoot_of_relative isFront,
              follow_here (isOpen.of_relative isFront front) isHere.2]
        | inr isLower =>
            obtain ⟨here, first, rest, isFront, _, notHere, _, isFirst⟩ := isLower
            have isPath := Path.ne_empty_of_pieces isFirst
            have isSomething : front ≠ [] := by simp [isFront]
            have isOpen := isOpen.of_append (.inl isSomething)
            rw [childPath_eq_join isFirst notHere,
              FileSystem.lookup_of_ne_empty (Path.join_tail_ne_empty isPath isRelative),
              Path.segments_join_tail isPath isRelative, isSegments,
              FileSystem.fromRoot_append (Path.pieces_ne_nil isPath),
              FileSystem.fromRoot_append isSomething,
              follow_pieces_spell isOpen writable.of_append (by simp)]
      · simp only [ne_eq, not_or, not_not] at isMore
        obtain ⟨rfl, rfl⟩ := isMore
        have areSegments : Path.segments "/" = ["", ""] := by
          rw [Path.segments_eq_map]
          decide +kernel
        rw [List.nil_append, spell_of_root, List.foldl_nil, FileSystem.lookup_of_ne_empty (by simp),
          areSegments]
        exact @FileTree.follow_empty [] system.root [] [""] (by simp)

end Glob

end StoreLint
