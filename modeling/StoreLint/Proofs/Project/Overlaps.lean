import StoreLint.Proofs.Project.Ignores
import StoreLint.Proofs.Project.Routes

/-!
# Files that two walks find

The files of a scan are told apart by their texts.  One walk writes each place below its
start in one way, so a file stands twice among the results just if two walks reach it and
the start of the inner one is not written as the outer one writes its place.  This cannot
happen without includes, or with includes that are plain paths of names.
-/

namespace StoreLint

namespace ScanRequest

/-- No two of the files that a scan finds are at the same place. -/
def ScansOnce (request : ScanRequest) (system : FileSystem) : Prop :=
  ∀ path ∈ (request.scan system).files, ∀ other ∈ (request.scan system).files,
    system.route path = system.route other → path = other

/-- Two walks find one file.  The start of the inner walk is at the place that `names` lead to from
the start of the outer one, but is not written in this way. -/
structure RespellsAt (request : ScanRequest) (system : FileSystem) (outer inner : String)
    (names rest : List String) : Prop where
  isOuter : outer ∈ request.starts system
  isInner : inner ∈ request.starts system
  areNames : ∀ name ∈ names ++ rest, Path.IsName name
  samePlace : system.route inner = system.route outer ++ names
  otherPieces : Path.pieces inner ≠ Path.pieces outer ++ names
  outerFile : Path.below outer (names ++ rest) ∈ (request.scan system).files
  innerFile : Path.below inner rest ∈ (request.scan system).files

variable {request : ScanRequest} {system : FileSystem} {path other start : String} {node : FileTree}

theorem startsOf_eq_ok_iff {base text : String} :
    (∃ paths, startsOf system base text = .ok paths ∧ start ∈ paths) ↔
      (Glob.hasWildcard text = false ∧ system.holds (Path.join base text) = true ∧
        start = Path.join base text) ∨
      (Glob.hasWildcard text = true ∧
        ∃ paths, Glob.directories system (Path.join base text) = .ok paths ∧ start ∈ paths) := by
  rw [startsOf]
  cases Glob.hasWildcard text with
  | true =>
      cases Glob.directories system (Path.join base text) with
      | error error => simp
      | ok paths => simp
  | false =>
      cases system.holds (Path.join base text) with
      | true => simp
      | false => simp

/-- A walk starts at the base, at an include that is a plain path, or at a directory that an include
pattern names. -/
theorem mem_starts_iff :
    start ∈ request.starts system ↔
      (request.includes = [] ∧ start = request.base) ∨
      (∃ text ∈ request.includes, Glob.hasWildcard text = false ∧
        system.holds (Path.join request.base text) = true ∧ start = Path.join request.base text) ∨
      ∃ text ∈ request.includes, Glob.hasWildcard text = true ∧
        ∃ paths, Glob.directories system (Path.join request.base text) = .ok paths ∧
          start ∈ paths := by
  rw [starts]
  split
  · next isEmpty => simp [List.isEmpty_iff.mp isEmpty]
  · next notEmpty =>
    have isSome : request.includes ≠ [] := by simpa using notEmpty
    rw [List.mem_flatMap]
    constructor
    · intro isMember
      obtain ⟨text, isText, isMember⟩ := isMember
      cases isStarts : startsOf system request.base text with
      | error warning =>
          rw [isStarts] at isMember
          cases isMember
      | ok paths =>
          rw [isStarts] at isMember
          cases startsOf_eq_ok_iff.mp ⟨paths, isStarts, isMember⟩ with
          | inl isPlain => exact .inr (.inl ⟨text, isText, isPlain⟩)
          | inr isPattern => exact .inr (.inr ⟨text, isText, isPattern⟩)
    · intro isStart
      have isIncluded : ∃ text ∈ request.includes,
          ∃ paths, startsOf system request.base text = .ok paths ∧ start ∈ paths := by
        cases isStart with
        | inl isBase => exact absurd isBase.1 isSome
        | inr isInclude =>
            cases isInclude with
            | inl isPlain =>
                obtain ⟨text, isText, isPlain⟩ := isPlain
                exact ⟨text, isText, startsOf_eq_ok_iff.mpr (.inl isPlain)⟩
            | inr isPattern =>
                obtain ⟨text, isText, isPattern⟩ := isPattern
                exact ⟨text, isText, startsOf_eq_ok_iff.mpr (.inr isPattern)⟩
      obtain ⟨text, isText, paths, isStarts, isMember⟩ := isIncluded
      refine ⟨text, isText, ?_⟩
      rw [isStarts]
      exact isMember

/-- What a scan reaches lies at the place that names lead to from a start. -/
theorem visits_iff (isNamed : system.root.WellNamed) :
    request.Visits system path node ↔
      ∃ start ∈ request.starts system, ∃ first, system.lookup start = .ok first ∧
        ∃ names, first.node? names = some node ∧ path = Path.below start names := by
  simp only [Visits, FileSystem.walkFrom_eq_ok_iff]
  constructor
  · intro isVisited
    obtain ⟨start, isStart, reached, ⟨first, isFirst, rfl⟩, isReached⟩ := isVisited
    have isPlace := (FileTree.mem_walk_iff_node? (isNamed.lookup isFirst)).mp isReached
    exact ⟨start, isStart, first, isFirst, isPlace⟩
  · intro isPlaced
    obtain ⟨start, isStart, first, isFirst, isPlace⟩ := isPlaced
    have isReached := (FileTree.mem_walk_iff_node? (isNamed.lookup isFirst)).mpr isPlace
    exact ⟨start, isStart, _, ⟨first, isFirst, rfl⟩, isReached⟩

theorem lookup_of_mem_files (isNamed : system.root.WellNamed)
    (isFile : path ∈ (request.scan system).files) :
    ∃ content, system.lookup path = .ok (.file content) := by
  obtain ⟨node, isVisited, isSource, _⟩ := mem_files_scan_iff.mp isFile
  have isLookup := (isVisited.lookup isNamed).1
  cases node with
  | file content => exact ⟨content, isLookup⟩
  | directory entries => simp [isSourceFile, FileTree.isDirectory] at isSource

theorem exists_start_of_mem_files (isNamed : system.root.WellNamed)
    (isFile : path ∈ (request.scan system).files) :
    ∃ start ∈ request.starts system, ∃ names, (∀ name ∈ names, Path.IsName name) ∧
      path = Path.below start names := by
  obtain ⟨node, isVisited, _⟩ := mem_files_scan_iff.mp isFile
  obtain ⟨start, isStart, first, isFirst, names, isNode, isPath⟩ :=
    (visits_iff isNamed).mp isVisited
  have areNames := ((isNamed.lookup isFirst).node? isNode).2
  exact ⟨start, isStart, names, areNames, isPath⟩

end ScanRequest

namespace FileSystem

variable {system : FileSystem} {path other : String} {content : FileContent}

/-- No separator stands at the end of the path of a file. -/
theorem segments_eq_pieces_of_file (isFile : system.lookup path = .ok (.file content)) :
    Path.segments path = Path.pieces path := by
  obtain ⟨isPath, isFollowed⟩ := lookup_eq_ok_iff.mp isFile
  cases Path.segments_eq_pieces_append isPath with
  | inl same => exact same
  | inr ends =>
      rw [ends, fromRoot_append (Path.pieces_ne_nil isPath)] at isFollowed
      cases FileTree.follow_append_cases [] system.root (system.fromRoot (Path.pieces path)) with
      | inl stops =>
          obtain ⟨error, stops⟩ := stops
          rw [stops] at isFollowed
          cases isFollowed
      | inr leads =>
          obtain ⟨outer, node, _, leads⟩ := leads
          rw [leads] at isFollowed
          cases node with
          | file content => cases isFollowed
          | directory entries => simp [FileTree.follow] at isFollowed

theorem eq_of_pieces_eq {others : FileContent} (isFile : system.lookup path = .ok (.file content))
    (isOther : system.lookup other = .ok (.file others))
    (same : Path.pieces path = Path.pieces other) : path = other := by
  apply Path.segments_injective
  rw [segments_eq_pieces_of_file isFile, segments_eq_pieces_of_file isOther, same]

end FileSystem

namespace ScanRequest

variable {request : ScanRequest} {system : FileSystem} {start outer inner : String}
  {names rest : List String}

theorem RespellsAt.not_scansOnce (respells : request.RespellsAt system outer inner names rest) :
    ¬request.ScansOnce system := by
  intro once
  have areRest : ∀ name ∈ rest, Path.IsName name := by
    intro name isRest
    exact respells.areNames name (List.mem_append_right _ isRest)
  have samePlace : system.route (Path.below outer (names ++ rest)) =
      system.route (Path.below inner rest) := by
    rw [FileSystem.route_below respells.areNames, FileSystem.route_below areRest,
      respells.samePlace, List.append_assoc]
  have same := congrArg Path.pieces (once _ respells.outerFile _ respells.innerFile samePlace)
  rw [Path.pieces_below respells.areNames, Path.pieces_below areRest, ← List.append_assoc] at same
  exact respells.otherPieces (List.append_cancel_right same).symm

theorem scansOnce_of_not_respellsAt (isNamed : system.root.WellNamed)
    (respects : ∀ outer inner names rest, ¬request.RespellsAt system outer inner names rest) :
    request.ScansOnce system := by
  -- One of the two starts is at or above the place of the other one; this is the case in which
  -- the first one is.
  have nested : ∀ outer ∈ request.starts system, ∀ inner ∈ request.starts system,
      ∀ names rest, (∀ name ∈ names ++ rest, Path.IsName name) →
        system.route inner = system.route outer ++ names →
        Path.below outer (names ++ rest) ∈ (request.scan system).files →
        Path.below inner rest ∈ (request.scan system).files →
        Path.below outer (names ++ rest) = Path.below inner rest := by
    intro outer isOuter inner isInner names rest areNames samePlace outerFile innerFile
    by_cases samePieces : Path.pieces inner = Path.pieces outer ++ names
    · obtain ⟨_, isFile⟩ := lookup_of_mem_files isNamed outerFile
      obtain ⟨_, isOther⟩ := lookup_of_mem_files isNamed innerFile
      apply FileSystem.eq_of_pieces_eq isFile isOther
      rw [Path.pieces_below areNames,
        Path.pieces_below fun name isRest => areNames name (List.mem_append_right _ isRest),
        samePieces, List.append_assoc]
    · exact absurd ⟨isOuter, isInner, areNames, samePlace, samePieces, outerFile, innerFile⟩
        (respects outer inner names rest)
  intro path isFile other isOther samePlace
  obtain ⟨first, isFirst, ahead, areAhead, rfl⟩ := exists_start_of_mem_files isNamed isFile
  obtain ⟨second, isSecond, behind, areBehind, rfl⟩ := exists_start_of_mem_files isNamed isOther
  rw [FileSystem.route_below areAhead, FileSystem.route_below areBehind] at samePlace
  cases List.append_eq_append_iff.mp samePlace with
  | inl isOuter =>
      obtain ⟨names, isInner, rfl⟩ := isOuter
      exact nested first isFirst second isSecond names behind areAhead isInner isFile isOther
  | inr isOuter =>
      obtain ⟨names, isInner, rfl⟩ := isOuter
      exact (nested second isSecond first isFirst names ahead areBehind isInner isOther isFile).symm

/-- Walks that start with the same pieces at the same place, and go on by names, write each file in
one way. -/
theorem scansOnce_of_front (isNamed : system.root.WellNamed) {front place : List String}
    (starts : ∀ start ∈ request.starts system, ∃ names,
      Path.pieces start = front ++ names ∧ system.route start = place ++ names) :
    request.ScansOnce system := by
  apply scansOnce_of_not_respellsAt isNamed
  intro outer inner names rest respells
  obtain ⟨ahead, outerPieces, outerPlace⟩ := starts outer respells.isOuter
  obtain ⟨behind, innerPieces, innerPlace⟩ := starts inner respells.isInner
  apply respells.otherPieces
  have isInner := respells.samePlace
  rw [outerPlace, innerPlace, List.append_assoc] at isInner
  rw [outerPieces, innerPieces, List.append_cancel_left isInner, List.append_assoc]

/-- The starts of includes that are plain paths. -/
theorem exists_include_of_mem_starts
    (arePlain : ∀ text ∈ request.includes, Glob.hasWildcard text = false)
    (isStart : start ∈ request.starts system) :
    start = request.base ∨ ∃ text ∈ request.includes, start = Path.join request.base text := by
  cases mem_starts_iff.mp isStart with
  | inl isBase => exact .inl isBase.2
  | inr isInclude =>
      cases isInclude with
      | inl isPlain =>
          obtain ⟨text, isText, _, _, isJoined⟩ := isPlain
          exact .inr ⟨text, isText, isJoined⟩
      | inr isPattern =>
          obtain ⟨text, isText, isWild, _⟩ := isPattern
          rw [arePlain text isText] at isWild
          cases isWild

/-- Each file that is found stands for the one at its place.  It stands there once just if no two
walks write a place in two ways, so always without includes and with includes that are plain paths
of names. -/
theorem scansOnce_iff_not_respellsAt (request : ScanRequest) {system : FileSystem}
    (isNamed : system.root.WellNamed) :
    (∀ path ∈ (request.scan system).files,
      ∃ content, system.root.node? (system.route path) = some (.file content)) ∧
      (request.ScansOnce system ↔
        ∀ outer inner names rest, ¬request.RespellsAt system outer inner names rest) ∧
      ((∀ text ∈ request.includes, Glob.hasWildcard text = false ∧
        ∀ piece ∈ Path.pieces text, Path.IsName piece) → request.ScansOnce system) := by
  refine ⟨?_, ?_, ?_⟩
  · intro path isFile
    obtain ⟨content, isLookup⟩ := lookup_of_mem_files isNamed isFile
    exact ⟨content, FileSystem.node?_route isLookup⟩
  · constructor
    · intro once outer inner names rest respells
      exact respells.not_scansOnce once
    · exact scansOnce_of_not_respellsAt isNamed
  · intro arePlain
    apply @scansOnce_of_front _ _ isNamed (Path.pieces request.base) (system.route request.base)
    intro start isStart
    cases exists_include_of_mem_starts (fun text isText => (arePlain text isText).1) isStart with
    | inl isBase => exact ⟨[], by simp [isBase], by simp [isBase]⟩
    | inr isInclude =>
        obtain ⟨text, isText, rfl⟩ := isInclude
        have areNames := (arePlain text isText).2
        have isRelative := Path.isAbsolute_eq_false_of_pieces areNames
        refine ⟨Path.pieces text, Path.pieces_join_tail isRelative, ?_⟩
        rw [FileSystem.route_join_tail isRelative, Path.routeFrom_names areNames]

section Doubled

def storeProject : FileSystem :=
  { root := .directory [("src", .directory [("a.js", .file (.text ""))])], current := [] }

/-- A scan with a directory that is included twice, written in two ways. -/
def doubledScan : ScanRequest :=
  { base := ".", includes := ["src", "./src"], ignores := [], ignoreTestFiles := false }

theorem wellNamed_storeProject : storeProject.root.WellNamed := by
  have isSource : Path.IsName "src" := by constructor <;> simp
  have isFile : Path.IsName "a.js" := by constructor <;> simp
  have isBelow : (FileTree.directory [("a.js", .file (.text ""))]).WellNamed :=
    .directory (by simp) (by simpa using isFile) (by simpa using .file _)
  exact .directory (by simp) (by simpa using isSource) (by simpa using isBelow)

theorem lookup_storeProject :
    storeProject.lookup "./src" = .ok (.directory [("a.js", .file (.text ""))]) ∧
      storeProject.lookup "././src" = .ok (.directory [("a.js", .file (.text ""))]) := by
  constructor
  · rw [FileSystem.lookup_eq_follow _ (by simp)]
    rfl
  · rw [FileSystem.lookup_eq_follow _ (by simp)]
    rfl

theorem starts_doubledScan : doubledScan.starts storeProject = ["./src", "././src"] := by
  have arePlain : Glob.hasWildcard "src" = false ∧ Glob.hasWildcard "./src" = false := by
    rw [Glob.hasWildcard_eq, Glob.hasWildcard_eq]
    simp
  have areJoined : Path.join "." "src" = "./src" ∧ Path.join "." "./src" = "././src" := by
    decide +kernel
  simp [starts, startsOf, doubledScan, arePlain, areJoined, FileSystem.holds, lookup_storeProject,
    Except.isOk, Except.toBool]

theorem isSourceFile_storeProject (isPath : start ≠ "") :
    isSourceFile (Path.join start "a.js", .file (.text "")) = true := by
  have isFile : Path.IsName "a.js" := by constructor <;> simp
  have isLast : Path.fileName? (Path.join start "a.js") = some "a.js" := by
    rw [Path.fileName?, Path.components_join isPath isFile]
    simp
  have pieces : "a.js".splitOn "." = ["a", "js"] :=
    (splitOn_eq_map "a.js" '.').trans rfl
  simp [isSourceFile, FileTree.isDirectory, isSourcePath, Path.extension?, isLast, pieces,
    sourceExtensions]

theorem mem_files_doubledScan (isStart : start ∈ ["./src", "././src"]) :
    Path.join start "a.js" ∈ (doubledScan.scan storeProject).files := by
  have isFirst : storeProject.lookup start = .ok (.directory [("a.js", .file (.text ""))]) := by
    cases List.mem_pair.mp isStart with
    | inl isPlain => exact isPlain ▸ lookup_storeProject.1
    | inr isDotted => exact isDotted ▸ lookup_storeProject.2
  have isVisited : doubledScan.Visits storeProject (Path.join start "a.js") (.file (.text "")) :=
    (visits_iff wellNamed_storeProject).mpr
      ⟨start, starts_doubledScan ▸ isStart, _, isFirst, ["a.js"], rfl, rfl⟩
  apply mem_files_scan_iff.mpr
  refine ⟨_, isVisited, isSourceFile_storeProject (FileSystem.lookup_eq_ok_iff.mp isFirst).1, ?_⟩
  simp [IgnoreSet.ofRequest, IgnoreSet.ignores, IgnoreSet.patternsOf, doubledScan]

/-- The file stands twice among the results. -/
theorem not_scansOnce_doubledScan : ¬doubledScan.ScansOnce storeProject := by
  have isFile : Path.IsName "a.js" := by constructor <;> simp
  rw [(scansOnce_iff_not_respellsAt doubledScan wellNamed_storeProject).2.1]
  intro respects
  apply respects "./src" "././src" [] ["a.js"]
  constructor
  · simp [starts_doubledScan]
  · simp [starts_doubledScan]
  · simpa using isFile
  · simp only [FileSystem.route, Path.pieces, Path.segments_eq_map]
    decide +kernel
  · simp only [Path.pieces, Path.segments_eq_map]
    decide +kernel
  · exact mem_files_doubledScan (by simp)
  · exact mem_files_doubledScan (by simp)

end Doubled

end ScanRequest

end StoreLint
