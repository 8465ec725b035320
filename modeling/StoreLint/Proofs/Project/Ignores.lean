import StoreLint.Proofs.Glob.Stars
import StoreLint.Proofs.Project.Walk

/-!
# What an ignored directory leaves out

A scan goes through ignored directories like through any others and asks about each path
by itself, so a file is left out for its own path and never for a directory that it lies
in.  Below a directory that a plain path leaves out every path starts with the plain path,
and is left out, too.  The same goes for a pattern with a star at its end.  Any other
pattern may fit a directory and none of the paths below.
-/

namespace StoreLint

namespace ScanRequest

/-- One of the walks reaches the path and finds the node there. -/
def Visits (request : ScanRequest) (system : FileSystem) (path : String) (node : FileTree) : Prop :=
  ∃ start ∈ request.starts system, ∃ reached,
    system.walkFrom start = .ok reached ∧ (path, node) ∈ reached

/-- The texts that are read as patterns of ignored paths. -/
def patternTexts (request : ScanRequest) : List String :=
  request.ignores.filter Glob.hasWildcard ++
    if request.ignoreTestFiles then testFilePatterns else []

/-- A plain path leaves out the directory, or a pattern with a star at its end fits the directory,
with or without a separator after it. -/
inductive CoversBelow (request : ScanRequest) (directory : String) : Prop where
  | plain {text : String} (isIgnore : text ∈ request.ignores)
      (isPlain : Glob.hasWildcard text = false)
      (starts : Path.startsWith directory (Path.join request.base text) = true)
  | pattern {text : String} {tokens : List Glob.Token} (isPattern : text ∈ request.patternTexts)
      (isRead : Glob.parse text = .ok tokens) (isLast : text.toList.getLast? = some '*')
      (fits : Glob.matchTokens tokens directory.toList = true ∨
        Glob.matchTokens tokens (Path.join directory "").toList = true)

end ScanRequest

namespace IgnoreSet

variable {request : ScanRequest} {path : String}

theorem mem_patternsOf_iff {texts : List String} {tokens : List Glob.Token} :
    tokens ∈ patternsOf texts ↔ ∃ text ∈ texts, Glob.parse text = .ok tokens := by
  rw [patternsOf, List.mem_filterMap]
  apply exists_congr
  intro text
  apply and_congr_right
  intro isText
  cases Glob.parse text with
  | error error => simp [Except.toOption]
  | ok tokens => simp [Except.toOption]

theorem patterns_ofRequest : (ofRequest request).patterns = patternsOf request.patternTexts :=
  (List.filterMap_append ..).symm

/-- A path is ignored if it starts with a plain path or if a pattern fits it. -/
theorem ignores_ofRequest_iff :
    (ofRequest request).ignores path = true ↔
      (∃ text ∈ request.ignores, Glob.hasWildcard text = false ∧
        Path.startsWith path (Path.join request.base text) = true) ∨
      ∃ text ∈ request.patternTexts, ∃ tokens, Glob.parse text = .ok tokens ∧
        Glob.matchTokens tokens path.toList = true := by
  rw [ignores, Bool.or_eq_true, List.any_eq_true, List.any_eq_true, patterns_ofRequest]
  apply or_congr
  · simp [ofRequest, and_assoc]
  · simp only [mem_patternsOf_iff]
    grind

end IgnoreSet

namespace ScanRequest

variable {request : ScanRequest} {system : FileSystem} {path directory : String} {node : FileTree}
  {entries : List (String × FileTree)}

theorem mem_walkedFiles_iff {ignored : IgnoreSet} {start : String} :
    path ∈ walkedFiles system ignored start ↔
      ∃ reached, system.walkFrom start = .ok reached ∧ ∃ node, (path, node) ∈ reached ∧
        isSourceFile (path, node) = true ∧ ignored.ignores path = false := by
  rw [walkedFiles]
  cases system.walkFrom start with
  | error error => simp
  | ok reached => simp

/-- A file is found if it is reached, is a source file and is not ignored at its own path. -/
theorem mem_files_scan_iff :
    path ∈ (request.scan system).files ↔
      ∃ node, request.Visits system path node ∧ isSourceFile (path, node) = true ∧
        (IgnoreSet.ofRequest request).ignores path = false := by
  simp only [scan, ascending, List.mem_eraseDups, List.mem_mergeSort, List.mem_flatMap,
    mem_walkedFiles_iff, Visits]
  grind

namespace Visits

/-- A scan goes on below a directory that it has reached. -/
theorem below (isVisited : request.Visits system directory (.directory entries))
    (isBelow : (path, node) ∈ FileTree.walkEntries directory entries) :
    request.Visits system path node := by
  obtain ⟨start, isStart, reached, isWalk, isReached⟩ := isVisited
  obtain ⟨first, isLookup, rfl⟩ := FileSystem.walkFrom_eq_ok_iff.mp isWalk
  exact ⟨start, isStart, _, isWalk, FileTree.mem_walk_of_mem_walkEntries isReached isBelow⟩

/-- A path that is reached names what has been found there. -/
theorem lookup (isNamed : system.root.WellNamed) (isVisited : request.Visits system path node) :
    system.lookup path = .ok node ∧ node.WellNamed := by
  obtain ⟨start, isStart, reached, isWalk, isReached⟩ := isVisited
  obtain ⟨first, isLookup, rfl⟩ := FileSystem.walkFrom_eq_ok_iff.mp isWalk
  exact FileSystem.lookup_of_mem_walk (isNamed.lookup isLookup) isLookup isReached

end Visits

/-- What covers a directory ignores all paths below. -/
theorem CoversBelow.ignores (covers : request.CoversBelow directory) (isPath : directory ≠ "")
    (isNamed : (FileTree.directory entries).WellNamed)
    (isBelow : (path, node) ∈ FileTree.walkEntries directory entries) :
    (IgnoreSet.ofRequest request).ignores path = true := by
  obtain ⟨text, components⟩ := FileTree.starts_of_mem_walkEntries isPath isNamed isBelow
  apply IgnoreSet.ignores_ofRequest_iff.mpr
  cases covers with
  | @plain plain isIgnore isPlain starts =>
      refine .inl ⟨plain, isIgnore, isPlain, ?_⟩
      rw [Path.startsWith, List.isPrefixOf_iff_prefix] at starts ⊢
      exact starts.trans components
  | @pattern pattern tokens isPattern isRead isLast fits =>
      refine .inr ⟨pattern, isPattern, tokens, isRead, ?_⟩
      have isOpen := Glob.endsOpen_of_parse isRead isLast
      obtain ⟨start, starts, isStart⟩ : ∃ start, start <+: path.toList ∧
          Glob.matchTokens tokens start = true := by
        cases fits with
        | inl fits => exact ⟨_, (Path.isPrefix_join_nothing isPath).trans text, fits⟩
        | inr fits => exact ⟨_, text, fits⟩
      obtain ⟨more, isText⟩ := starts
      rw [← isText]
      exact isOpen.matchTokens_append isStart more

/-- A directory is ignored together with what lies below, or for a pattern that does not end with
a star. -/
theorem coversBelow_or_of_ignores
    (isIgnored : (IgnoreSet.ofRequest request).ignores directory = true) :
    request.CoversBelow directory ∨
      ∃ text ∈ request.patternTexts, ∃ tokens, Glob.parse text = .ok tokens ∧
        Glob.matchTokens tokens directory.toList = true ∧ text.toList.getLast? ≠ some '*' := by
  cases IgnoreSet.ignores_ofRequest_iff.mp isIgnored with
  | inl isPlain =>
      obtain ⟨text, isIgnore, isPlain, starts⟩ := isPlain
      exact .inl (.plain isIgnore isPlain starts)
  | inr isPattern =>
      obtain ⟨text, isPattern, tokens, isRead, fits⟩ := isPattern
      by_cases isLast : text.toList.getLast? = some '*'
      · exact .inl (.pattern isPattern isRead isLast (.inl fits))
      · exact .inr ⟨text, isPattern, tokens, isRead, fits, isLast⟩

/-- A source file below a directory is found just if no ignore applies to its own path.  Nothing is
found below a directory that is ignored for a plain path or for a pattern with a star at its end,
and any other ignored directory is ignored for a pattern without one. -/
theorem files_below_directory (request : ScanRequest) {system : FileSystem}
    (isNamed : system.root.WellNamed)
    {directory : String} {entries : List (String × FileTree)}
    (isVisited : request.Visits system directory (.directory entries)) {path : String}
    {node : FileTree} (isBelow : (path, node) ∈ FileTree.walkEntries directory entries) :
    (path ∈ (request.scan system).files ↔
      isSourceFile (path, node) = true ∧ (IgnoreSet.ofRequest request).ignores path = false) ∧
      (request.CoversBelow directory → path ∉ (request.scan system).files) ∧
      ((IgnoreSet.ofRequest request).ignores directory = true →
        request.CoversBelow directory ∨
          ∃ text ∈ request.patternTexts, ∃ tokens, Glob.parse text = .ok tokens ∧
            Glob.matchTokens tokens directory.toList = true ∧
            text.toList.getLast? ≠ some '*') := by
  have isReached := isVisited.below isBelow
  obtain ⟨isDirectory, areNamed⟩ := isVisited.lookup isNamed
  obtain ⟨isPath, _⟩ := FileSystem.lookup_eq_ok_iff.mp isDirectory
  refine ⟨?_, ?_, coversBelow_or_of_ignores⟩
  · rw [mem_files_scan_iff]
    constructor
    · rintro ⟨found, isFound, isSource⟩
      -- Other walks may reach the path as well, but it names one node.
      have same := (isFound.lookup isNamed).1.symm.trans (isReached.lookup isNamed).1
      cases same
      exact isSource
    · intro isSource
      exact ⟨node, isReached, isSource⟩
  · intro covers isFile
    obtain ⟨_, _, _, notIgnored⟩ := mem_files_scan_iff.mp isFile
    rw [covers.ignores isPath areNamed isBelow] at notIgnored
    cases notIgnored

section Legacy

/-- A project with one file, in a directory for old code. -/
def legacyProject : FileSystem :=
  { root := .directory [("legacy", .directory [("old.js", .file (.text ""))])]
    current := [] }

def legacyScan (ignores : List String) : ScanRequest :=
  { base := ".", includes := [], ignores, ignoreTestFiles := false }

theorem wellNamed_legacyProject : legacyProject.root.WellNamed := by
  have isLegacy : Path.IsName "legacy" := by constructor <;> decide +kernel
  have isOld : Path.IsName "old.js" := by constructor <;> decide +kernel
  have isBelow : (FileTree.directory [("old.js", .file (.text ""))]).WellNamed :=
    .directory (by simp) (by simpa using isOld) (by simpa using .file _)
  exact .directory (by simp) (by simpa using isLegacy) (by simpa using isBelow)

theorem visits_legacy (ignores : List String) :
    (legacyScan ignores).Visits legacyProject "./legacy"
      (.directory [("old.js", .file (.text ""))]) := by
  have isRoot : legacyProject.lookup "." = .ok legacyProject.root := by
    rw [FileSystem.lookup_eq_follow _ (by decide +kernel)]
    rfl
  have isJoined : Path.join "." "legacy" = "./legacy" := by decide +kernel
  refine ⟨".", List.mem_singleton_self _, _, FileSystem.walkFrom_eq_ok_iff.mpr ⟨_, isRoot, rfl⟩, ?_⟩
  simp [legacyProject, FileTree.walk, FileTree.walkEntries, isJoined]

theorem mem_walkEntries_legacy :
    ("./legacy/old.js", .file (.text "")) ∈
      FileTree.walkEntries "./legacy" [("old.js", .file (.text ""))] := by
  have isJoined : Path.join "./legacy" "old.js" = "./legacy/old.js" := by decide +kernel
  simp [FileTree.walk, FileTree.walkEntries, isJoined]

theorem isSourceFile_legacy : isSourceFile ("./legacy/old.js", .file (.text "")) = true := by
  have isName : Path.fileName? "./legacy/old.js" = some "old.js" := by
    simp only [Path.fileName?, Path.components, Path.segments_eq_map]
    decide +kernel
  have pieces : "old.js".splitOn "." = ["old", "js"] :=
    (splitOn_eq_map "old.js" '.').trans (by decide +kernel)
  simp [isSourceFile, FileTree.isDirectory, isSourcePath, Path.extension?, isName, pieces,
    sourceExtensions]

/-- A pattern without a star at its end fits the directory and not the file. -/
theorem ignores_legacy :
    (IgnoreSet.ofRequest (legacyScan ["**/legacy"])).ignores "./legacy" = true ∧
      (IgnoreSet.ofRequest (legacyScan ["**/legacy"])).ignores "./legacy/old.js" = false := by
  rw [IgnoreSet.ofRequest, funext Glob.hasWildcard_eq]
  decide +kernel

/-- The file is found though its directory is ignored. -/
theorem not_ignored_below_legacy :
    ¬∀ (request : ScanRequest) (system : FileSystem) (directory : String)
      (entries : List (String × FileTree)), system.root.WellNamed →
        request.Visits system directory (.directory entries) →
        (IgnoreSet.ofRequest request).ignores directory = true →
        ∀ path node, (path, node) ∈ FileTree.walkEntries directory entries →
          path ∉ (request.scan system).files := by
  intro leavesOut
  have isVisited := visits_legacy ["**/legacy"]
  obtain ⟨isIgnored, notIgnored⟩ := ignores_legacy
  apply leavesOut _ _ _ _ wellNamed_legacyProject isVisited isIgnored _ _ mem_walkEntries_legacy
  exact mem_files_scan_iff.mpr
    ⟨_, isVisited.below mem_walkEntries_legacy, isSourceFile_legacy, notIgnored⟩

theorem coversBelow_legacy {text : String} {tokens : List Glob.Token}
    (isWild : Glob.hasWildcard text = true) (isRead : Glob.parse text = .ok tokens)
    (isLast : text.toList.getLast? = some '*')
    (fits : Glob.matchTokens tokens "./legacy/".toList = true) :
    (legacyScan [text]).CoversBelow "./legacy" := by
  have isJoined : Path.join "./legacy" "" = "./legacy/" := by decide +kernel
  have isPattern : text ∈ (legacyScan [text]).patternTexts := by
    apply List.mem_append_left
    exact List.mem_filter.mpr ⟨List.mem_singleton_self _, isWild⟩
  exact .pattern isPattern isRead isLast (.inr (isJoined ▸ fits))

/-- A plain path and patterns with a star at the end leave the file out, and another pattern does
not. -/
theorem files_below_directory_legacy :
    "./legacy/old.js" ∉ ((legacyScan ["legacy"]).scan legacyProject).files ∧
      "./legacy/old.js" ∉ ((legacyScan ["**/leg*"]).scan legacyProject).files ∧
      "./legacy/old.js" ∉ ((legacyScan ["**/legacy/**"]).scan legacyProject).files ∧
      "./legacy/old.js" ∈ ((legacyScan ["**/legacy"]).scan legacyProject).files := by
  have below := fun ignores => files_below_directory (legacyScan ignores) wellNamed_legacyProject
    (visits_legacy ignores) mem_walkEntries_legacy
  refine ⟨?_, ?_, ?_, ?_⟩
  · apply (below ["legacy"]).2.1
    refine .plain (List.mem_singleton_self _) (by rw [Glob.hasWildcard_eq]; decide +kernel) ?_
    simp only [Path.startsWith, Path.components, Path.segments_eq_map]
    decide +kernel
  · apply (below ["**/leg*"]).2.1
    apply coversBelow_legacy (by rw [Glob.hasWildcard_eq]; decide +kernel) rfl
    · decide +kernel
    · decide +kernel
  · apply (below ["**/legacy/**"]).2.1
    apply coversBelow_legacy (by rw [Glob.hasWildcard_eq]; decide +kernel) rfl
    · decide +kernel
    · decide +kernel
  · apply (below ["**/legacy"]).1.mpr
    exact ⟨isSourceFile_legacy, ignores_legacy.2⟩

end Legacy

end ScanRequest

end StoreLint
