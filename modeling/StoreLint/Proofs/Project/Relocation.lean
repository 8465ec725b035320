import StoreLint.Proofs.Glob.Joined
import StoreLint.Proofs.Project.Overlaps

/-!
# Scans of copies of a project

A scan goes from its base along ways that do not depend on where the base is, as long as no
include leads out of the base and the patterns among the includes can be read behind the base.
So only what is ignored can tell two copies of a project apart.  A plain path leaves out what is
below it wherever the base is, unless a pattern has taken a leading `.` off the paths.  Patterns
of ignored paths are compared with whole paths, the base included.
-/

namespace StoreLint

/-- A way from a base to something that a scan reaches. -/
inductive Way where
  | direct (names : List String)
  | plain (text : String) (names : List String)
  | globbed (found names : List String)

namespace Way

/-- How the end of the way is written if it starts at a base. -/
def path (base : String) : Way → String
  | direct names => Path.below base names
  | plain text names => Path.below (Path.join base text) names
  | globbed found names => Path.below (Glob.spell (Path.pieces base ++ found)) names

/-- The pieces that are followed from the base. -/
def pieces : Way → List String
  | direct names => names
  | plain text names => Path.segments text ++ names
  | globbed found names => found ++ names

/-- The pieces that lead from one directory to another. -/
def steps (way : Way) : List String := way.pieces.filter Path.isStep

/-- The place of the end of the way, seen from the base. -/
def place (way : Way) : List String := Path.routeFrom [] way.pieces

/-- What the way adds to a base can be written after it. -/
def Fits (base : String) : Way → Prop
  | direct names => ∀ name ∈ names, Path.IsName name
  | plain text names => Path.isAbsolute text = false ∧ ∀ name ∈ names, Path.IsName name
  | globbed found names =>
      Path.Writable (Path.pieces base ++ found) ∧ ∀ name ∈ names, Path.IsName name

/-- The end of the way is written like the base from its first piece on. -/
def KeepsLead (base : String) : Way → Prop
  | globbed _ _ => (Path.pieces base).head? ≠ some "."
  | _ => True

variable {system : FileSystem} {way : Way} {base other text : String}

theorem steps_path (fits : way.Fits base) :
    Path.steps (way.path base) = Path.steps base ++ way.steps := by
  cases way with
  | direct names =>
      rw [path, ← Path.filter_pieces, Path.pieces_below fits, List.filter_append,
        Path.filter_pieces]
      rfl
  | plain text names =>
      obtain ⟨isRelative, areNames⟩ := fits
      rw [path, ← Path.filter_pieces, Path.pieces_below areNames, Path.pieces_join_tail isRelative,
        List.append_assoc, List.filter_append, List.filter_append, Path.filter_pieces,
        Path.filter_pieces, steps, pieces, List.filter_append]
      rfl
  | globbed found names =>
      obtain ⟨writable, areNames⟩ := fits
      rw [path, ← Path.filter_pieces, Path.pieces_below areNames, List.filter_append,
        Path.filter_pieces, Glob.steps_spell writable, List.filter_append, Path.filter_pieces,
        steps, pieces, List.filter_append, List.append_assoc]

theorem isAbsolute_path (isBase : base ≠ "") (fits : way.Fits base) :
    Path.isAbsolute (way.path base) = Path.isAbsolute base := by
  obtain ⟨first, rest, isFirst⟩ := List.exists_cons_of_ne_nil (Path.pieces_ne_nil isBase)
  rw [Bool.eq_iff_iff, Path.isAbsolute_iff_pieces, Path.isAbsolute_iff_pieces]
  cases way with
  | direct names => rw [path, Path.pieces_below fits, isFirst]; rfl
  | plain text names =>
      rw [path, Path.pieces_below fits.2, Path.pieces_join_tail fits.1, isFirst]
      rfl
  | globbed found names =>
      obtain ⟨writable, areNames⟩ := fits
      obtain ⟨other, more, isOther, isRoot⟩ := Glob.exists_pieces_spell writable
      rw [path, Path.pieces_below areNames, isOther]
      simpa [isFirst] using isRoot

/-- A way leads to the same place below each base. -/
theorem route_path (isBase : base ≠ "") (fits : way.Fits base) (inside : Path.Inside way.pieces) :
    system.route (way.path base) = system.route base ++ way.place := by
  rw [FileSystem.route_eq, FileSystem.route_eq, FileSystem.origin, FileSystem.origin,
    FileSystem.before, FileSystem.before, isAbsolute_path isBase fits, steps_path fits,
    Path.routeFrom_append, steps, Path.routeFrom_filter, inside.routeFrom, place]

/-- The first piece of a base is the first one of all that is written after it. -/
theorem exists_pieces_path {first : String} {rest : List String}
    (isFirst : Path.pieces base = first :: rest) (fits : way.Fits base)
    (keeps : way.KeepsLead base) : ∃ more, Path.pieces (way.path base) = first :: more := by
  cases way with
  | direct names =>
      refine ⟨rest ++ names, ?_⟩
      rw [path, Path.pieces_below fits, isFirst, List.cons_append]
  | plain text names =>
      refine ⟨rest ++ Path.pieces text ++ names, ?_⟩
      rw [path, Path.pieces_below fits.2, Path.pieces_join_tail fits.1, isFirst, List.cons_append,
        List.cons_append]
  | globbed found names =>
      obtain ⟨writable, areNames⟩ := fits
      have notHere : first ≠ "." := by
        intro isHere
        apply keeps
        rw [isFirst, isHere]
        rfl
      rw [isFirst] at writable
      rw [path, Path.pieces_below areNames, isFirst]
      cases Glob.spell_cases writable with
      | inl isHere => exact absurd (isHere.2 first (by simp)) notHere
      | inr isWritten =>
          obtain ⟨here, other, more, isAll, areHere, _, _, isPieces⟩ := isWritten
          cases here with
          | nil =>
              cases (List.cons.inj isAll).1
              exact ⟨_, by rw [isPieces, List.cons_append]⟩
          | cons piece here =>
              cases (List.cons.inj isAll).1
              exact absurd (areHere first List.mem_cons_self) notHere

/-- A plain path leaves out what is reached through its steps, wherever the base is. -/
theorem startsWith_path_iff (isBase : base ≠ "") (isRelative : Path.isAbsolute text = false)
    (fits : way.Fits base) (keeps : way.KeepsLead base) :
    Path.startsWith (way.path base) (Path.join base text) = true ↔
      Path.steps text <+: way.steps := by
  obtain ⟨first, rest, isFirst⟩ := List.exists_cons_of_ne_nil (Path.pieces_ne_nil isBase)
  obtain ⟨more, isPath⟩ := exists_pieces_path isFirst fits keeps
  have isJoined : Path.pieces (Path.join base text) = first :: (rest ++ Path.pieces text) := by
    rw [Path.pieces_join_tail isRelative, isFirst, List.cons_append]
  rw [Path.startsWith, List.isPrefixOf_iff_prefix, Path.components_eq_lead_append,
    Path.components_eq_lead_append, Path.lead_of_pieces isPath, Path.lead_of_pieces isJoined,
    steps_path fits, ← @Path.filter_pieces (Path.join base text), Path.pieces_join_tail isRelative,
    List.filter_append, Path.filter_pieces, Path.filter_pieces, List.prefix_append_right_inj,
    List.prefix_append_right_inj]

/-- Whether a path has the extension of a source file depends on its last step. -/
theorem isSourcePath_path (fits : way.Fits base) (fitsOther : way.Fits other)
    (isLower : way.steps ≠ []) : isSourcePath (way.path base) = isSourcePath (way.path other) := by
  have isLast : ∀ base, way.Fits base →
      (Path.components (way.path base)).getLast? = way.steps.getLast? := by
    intro base fits
    rw [Path.components_eq_lead_append, steps_path fits, ← List.append_assoc,
      List.getLast?_append_of_ne_nil _ isLower]
  rw [isSourcePath, isSourcePath, Path.extension?, Path.extension?, Path.fileName?, Path.fileName?,
    isLast base fits, isLast other fitsOther]

end Way

namespace ScanRequest

/-- The same scan at another base. -/
def moved (request : ScanRequest) (base : String) : ScanRequest := { request with base }

/-- The scan finds a file at a place below its base. -/
def Selects (request : ScanRequest) (system : FileSystem) (place : List String) : Prop :=
  ∃ path ∈ (request.scan system).files, system.route path = system.route request.base ++ place

/-- The scans of two copies of a project find files at the same places below their bases. -/
def SelectsAlike (request : ScanRequest) (system : FileSystem) (base : String) (copy : FileSystem)
    (other : String) : Prop :=
  ∀ place, (request.moved base).Selects system place ↔ (request.moved other).Selects copy place

/-- The scan at the base leaves out what is written at the end of the way. -/
def LeavesOut (request : ScanRequest) (base : String) (way : Way) : Prop :=
  (IgnoreSet.ofRequest (request.moved base)).ignores (way.path base) = true

/-- One of the plain paths that are seen from the base is gone through on the way. -/
def Covers (request : ScanRequest) (way : Way) : Prop :=
  ∃ text ∈ request.ignores, Glob.hasWildcard text = false ∧
    Path.isAbsolute text = false ∧ Path.steps text <+: way.steps

/-- One of the plain paths from the root leads to the path, or to a directory above it. -/
def LiesBelow (request : ScanRequest) (path : String) : Prop :=
  ∃ text ∈ request.ignores, Glob.hasWildcard text = false ∧
    Path.isAbsolute text = true ∧ Path.startsWith path text = true

/-- A pattern of ignored paths fits the path. -/
def FitsPattern (request : ScanRequest) (path : String) : Prop :=
  ∃ text ∈ request.patternTexts, ∃ tokens, Glob.parse text = .ok tokens ∧
    Glob.matchTokens tokens path.toList = true

/-- No include leads out of the base. -/
structure KeepsInside (request : ScanRequest) : Prop where
  plain : ∀ text ∈ request.includes, Glob.hasWildcard text = false →
    Path.isAbsolute text = false ∧ Path.Inside (Path.segments text)
  pattern : ∀ text ∈ request.includes, Glob.hasWildcard text = true → Glob.StaysBelow text

/-- A directory is at the base, and include patterns can be read below this base. -/
structure StandsAt (request : ScanRequest) (entries : List (String × FileTree))
    (system : FileSystem) (base : String) : Prop where
  isNamed : system.root.WellNamed
  isBase : system.lookup base = .ok (.directory entries)
  verbatim : ∀ text ∈ request.includes, Glob.hasWildcard text = true → Glob.Verbatim base text

/-- The scan of a directory goes a way and comes to a node. -/
inductive Walks (request : ScanRequest) (directory : FileTree) : Way → FileTree → Prop where
  | direct {names : List String} {node : FileTree} (noIncludes : request.includes = [])
      (isNode : directory.node? names = some node) : Walks request directory (.direct names) node
  | plain {text : String} {names : List String} {first node : FileTree}
      (isInclude : text ∈ request.includes) (isPlain : Glob.hasWildcard text = false)
      (isFirst : FileTree.follow [] directory (Path.segments text) = .ok first)
      (isNode : first.node? names = some node) : Walks request directory (.plain text names) node
  | globbed {text : String} {found names : List String} {first node : FileTree}
      (isInclude : text ∈ request.includes) (isPattern : Glob.hasWildcard text = true)
      (isFound : Glob.Names directory text found)
      (isFirst : FileTree.follow [] directory found = .ok first)
      (isNode : first.node? names = some node) : Walks request directory (.globbed found names) node

variable {request : ScanRequest} {system copy : FileSystem} {node : FileTree}
  {base other path start : String} {way : Way} {entries : List (String × FileTree)}
  {place : List String}

namespace Walks

theorem inside (walks : request.Walks (.directory entries) way node) (keeps : request.KeepsInside)
    (stands : request.StandsAt entries system base) :
    way.Fits base ∧ Path.Inside way.pieces := by
  have isNamed := stands.isNamed.lookup stands.isBase
  cases walks with
  | direct noIncludes isNode =>
      have areNames := (isNamed.node? isNode).2
      exact ⟨areNames, @Path.Inside.append_names [] _ rfl areNames⟩
  | plain isInclude isPlain isFirst isNode =>
      obtain ⟨isRelative, inside⟩ := keeps.plain _ isInclude isPlain
      have areNames := ((isNamed.follow (by simp) isFirst).node? isNode).2
      exact ⟨⟨isRelative, areNames⟩, inside.append_names areNames⟩
  | globbed isInclude isPattern isFound isFirst isNode =>
      have areNames := ((isNamed.follow (by simp) isFirst).node? isNode).2
      obtain ⟨writable, inside⟩ := isFound.writable isNamed (keeps.pattern _ isInclude isPattern)
        (stands.verbatim _ isInclude isPattern)
      exact ⟨⟨writable, areNames⟩, inside.append_names areNames⟩

theorem follow (walks : request.Walks (.directory entries) way node)
    (isNamed : (FileTree.directory entries).WellNamed) :
    FileTree.follow [] (.directory entries) way.pieces = .ok node := by
  cases walks with
  | direct noIncludes isNode =>
      exact @FileTree.follow_append_names _ [] [] _ _ _ rfl (isNamed.node? isNode).2 isNode
  | plain isInclude isPlain isFirst isNode =>
      have areNames := ((isNamed.follow (by simp) isFirst).node? isNode).2
      exact FileTree.follow_append_names isFirst areNames isNode
  | globbed isInclude isPattern isFound isFirst isNode =>
      have areNames := ((isNamed.follow (by simp) isFirst).node? isNode).2
      exact FileTree.follow_append_names isFirst areNames isNode

/-- A file is not at the base itself. -/
theorem steps_ne_nil {content : FileContent}
    (walks : request.Walks (.directory entries) way (.file content))
    (isNamed : (FileTree.directory entries).WellNamed) : way.steps ≠ [] := by
  intro isHere
  obtain ⟨_, isStacked⟩ := FileTree.Stacked.root.follow (walks.follow isNamed)
  have isNode := isStacked.node?
  rw [← Path.routeFrom_filter, ← Way.steps, isHere] at isNode
  cases isNode

end Walks

/-- What a scan at the base visits is at the end of a way from the base. -/
theorem StandsAt.exists_walks (stands : request.StandsAt entries system base)
    (keeps : request.KeepsInside) (isVisited : (request.moved base).Visits system path node) :
    ∃ way, request.Walks (.directory entries) way node ∧ path = way.path base := by
  obtain ⟨start, isStart, first, isFirst, names, isNode, isPath⟩ :=
    (ScanRequest.visits_iff stands.isNamed).mp isVisited
  cases mem_starts_iff.mp isStart with
  | inl isBase =>
      obtain ⟨noIncludes, rfl⟩ := isBase
      cases stands.isBase.symm.trans isFirst
      exact ⟨.direct names, .direct noIncludes isNode, isPath⟩
  | inr isInclude =>
      cases isInclude with
      | inl isPlain =>
          obtain ⟨text, isInclude, isPlain, _, rfl⟩ := isPlain
          obtain ⟨isRelative, inside⟩ := keeps.plain text isInclude isPlain
          have isLookup := FileSystem.lookup_join_inside stands.isBase isRelative inside
          exact ⟨.plain text names, .plain isInclude isPlain (isLookup.symm.trans isFirst) isNode,
            isPath⟩
      | inr isPattern =>
          obtain ⟨text, isInclude, isPattern, isNamedBy⟩ := isPattern
          have staysBelow := keeps.pattern text isInclude isPattern
          have verbatim := stands.verbatim text isInclude isPattern
          obtain ⟨found, isFound, rfl⟩ :=
            (Glob.mem_directories_join_iff stands.isNamed stands.isBase verbatim staysBelow).mp
              isNamedBy
          have isNamed := stands.isNamed.lookup stands.isBase
          obtain ⟨writable, inside⟩ := isFound.writable isNamed staysBelow verbatim
          have isLookup := (Glob.holds_pieces stands.isBase).leads found writable inside
          exact ⟨.globbed found names,
            .globbed isInclude isPattern isFound (isLookup.symm.trans isFirst) isNode, isPath⟩

/-- A scan at the base visits what is at the end of a way from the base. -/
theorem Walks.visits (walks : request.Walks (.directory entries) way node)
    (stands : request.StandsAt entries system base) (keeps : request.KeepsInside) :
    (request.moved base).Visits system (way.path base) node := by
  apply (ScanRequest.visits_iff stands.isNamed).mpr
  cases walks with
  | @direct names _ noIncludes isNode =>
      exact ⟨base, mem_starts_iff.mpr (.inl ⟨noIncludes, rfl⟩), _, stands.isBase, names, isNode,
        rfl⟩
  | @plain text names first _ isInclude isPlain isFirst isNode =>
      obtain ⟨isRelative, inside⟩ := keeps.plain text isInclude isPlain
      have isLookup :=
        (FileSystem.lookup_join_inside stands.isBase isRelative inside).trans isFirst
      have isHeld : system.holds (Path.join base text) = true := by
        rw [FileSystem.holds, isLookup]
        rfl
      have isStart : Path.join base text ∈ (request.moved base).starts system :=
        mem_starts_iff.mpr (.inr (.inl ⟨text, isInclude, isPlain, isHeld, rfl⟩))
      exact ⟨Path.join base text, isStart, first, isLookup, names, isNode, rfl⟩
  | @globbed text found names first _ isInclude isPattern isFound isFirst isNode =>
      have staysBelow := keeps.pattern text isInclude isPattern
      have verbatim := stands.verbatim text isInclude isPattern
      have isNamed := stands.isNamed.lookup stands.isBase
      obtain ⟨writable, inside⟩ := isFound.writable isNamed staysBelow verbatim
      have isLookup := ((Glob.holds_pieces stands.isBase).leads found writable inside).trans isFirst
      have isNamedBy :=
        (Glob.mem_directories_join_iff stands.isNamed stands.isBase verbatim staysBelow).mpr
          ⟨found, isFound, rfl⟩
      have isStart : Glob.spell (Path.pieces base ++ found) ∈ (request.moved base).starts system :=
        mem_starts_iff.mpr (.inr (.inr ⟨text, isInclude, isPattern, isNamedBy⟩))
      exact ⟨_, isStart, first, isLookup, names, isNode, rfl⟩

theorem exists_startsWith_iff (isBase : base ≠ "") (fits : way.Fits base)
    (keepsLead : way.KeepsLead base) :
    (∃ text ∈ request.ignores, Glob.hasWildcard text = false ∧
      Path.startsWith (way.path base) (Path.join base text) = true) ↔
      request.Covers way ∨ request.LiesBelow (way.path base) := by
  rw [Covers, LiesBelow, ← exists_or]
  apply exists_congr
  intro text
  cases isRoot : Path.isAbsolute text with
  | true =>
      have isJoined : Path.join base text = text := by
        rw [Path.join, isRoot]
        rfl
      simp [isJoined]
  | false =>
      have isCovered := Way.startsWith_path_iff isBase isRoot fits keepsLead
      simp [isCovered]

/-- What is left out at the end of a way is told by the steps of the way for plain paths that are
seen from the base, and by the whole path for plain paths from the root and for patterns. -/
theorem StandsAt.leavesOut_iff (stands : request.StandsAt entries system base)
    (fits : way.Fits base) (keepsLead : way.KeepsLead base) :
    request.LeavesOut base way ↔
      request.Covers way ∨ request.LiesBelow (way.path base) ∨
        request.FitsPattern (way.path base) := by
  have isBase := (FileSystem.lookup_eq_ok_iff.mp stands.isBase).1
  rw [LeavesOut, IgnoreSet.ignores_ofRequest_iff, ← or_assoc]
  exact or_congr (exists_startsWith_iff isBase fits keepsLead) Iff.rfl

/-- A file is found if a way leads to it at whose end it is not left out. -/
theorem StandsAt.mem_files_iff (stands : request.StandsAt entries system base)
    (keeps : request.KeepsInside) :
    path ∈ ((request.moved base).scan system).files ↔
      ∃ way content, request.Walks (.directory entries) way (.file content) ∧
        path = way.path base ∧ isSourcePath (way.path base) = true ∧
        ¬request.LeavesOut base way := by
  rw [mem_files_scan_iff]
  constructor
  · intro isFile
    obtain ⟨node, isVisited, isSource, isKept⟩ := isFile
    obtain ⟨way, walks, rfl⟩ := stands.exists_walks keeps isVisited
    rw [isSourceFile, Bool.and_eq_true] at isSource
    cases node with
    | directory entries => cases isSource.1
    | file content =>
        exact ⟨way, content, walks, rfl, isSource.2, Bool.eq_false_iff.mp isKept⟩
  · intro isWalked
    obtain ⟨way, content, walks, rfl, isSource, isKept⟩ := isWalked
    refine ⟨.file content, walks.visits stands keeps, ?_, Bool.eq_false_iff.mpr isKept⟩
    rw [isSourceFile, isSource]
    rfl

theorem StandsAt.selects_of_selects (stands : request.StandsAt entries system base)
    (standsOther : request.StandsAt entries copy other) (keeps : request.KeepsInside)
    (agree : ∀ way content, request.Walks (.directory entries) way (.file content) →
      way.place = place → request.LeavesOut other way → request.LeavesOut base way)
    (isSelected : (request.moved base).Selects system place) :
    (request.moved other).Selects copy place := by
  have isNamed := stands.isNamed.lookup stands.isBase
  have isBase := (FileSystem.lookup_eq_ok_iff.mp stands.isBase).1
  have isOther := (FileSystem.lookup_eq_ok_iff.mp standsOther.isBase).1
  obtain ⟨path, isFile, isPlace⟩ := isSelected
  obtain ⟨way, content, walks, rfl, isSource, isKept⟩ := (stands.mem_files_iff keeps).mp isFile
  obtain ⟨fits, inside⟩ := walks.inside keeps stands
  obtain ⟨fitsOther, _⟩ := walks.inside keeps standsOther
  rw [Way.route_path isBase fits inside] at isPlace
  have isPlace := List.append_cancel_left isPlace
  rw [Way.isSourcePath_path fits fitsOther (walks.steps_ne_nil isNamed)] at isSource
  refine ⟨way.path other, ?_, ?_⟩
  · apply (standsOther.mem_files_iff keeps).mpr
    exact ⟨way, content, walks, rfl, isSource, mt (agree way content walks isPlace) isKept⟩
  · rw [Way.route_path isOther fitsOther inside, isPlace]
    rfl

/-- Two copies of a project have the same file at a place below their bases if it is left out of
both of them or of none, on each way to it.  What is left out is told by the steps of the way for
plain paths that are seen from the base, and by the whole path for plain paths from the root and
for patterns. -/
theorem selects_moved_iff (request : ScanRequest) {entries : List (String × FileTree)}
    {system copy : FileSystem} {base other : String} (keeps : request.KeepsInside)
    (stands : request.StandsAt entries system base)
    (standsOther : request.StandsAt entries copy other) :
    (∀ place,
      (∀ way content, request.Walks (.directory entries) way (.file content) →
        way.place = place → (request.LeavesOut base way ↔ request.LeavesOut other way)) →
      ((request.moved base).Selects system place ↔ (request.moved other).Selects copy place)) ∧
      ∀ way node, request.Walks (.directory entries) way node → way.KeepsLead base →
        (request.LeavesOut base way ↔
          request.Covers way ∨ request.LiesBelow (way.path base) ∨
            request.FitsPattern (way.path base)) := by
  constructor
  · intro place agree
    constructor
    · apply stands.selects_of_selects standsOther keeps
      intro way content walks isPlace
      exact (agree way content walks isPlace).mpr
    · apply standsOther.selects_of_selects stands keeps
      intro way content walks isPlace
      exact (agree way content walks isPlace).mp
  · intro way node walks keepsLead
    exact stands.leavesOut_iff (walks.inside keeps stands).1 keepsLead

/-- Includes can be read below a base without wildcards that ends with a name. -/
theorem StandsAt.of_pieces {front : List String} {name : String}
    (isNamed : system.root.WellNamed) (isBase : system.lookup base = .ok (.directory entries))
    (noWildcard : ∀ c ∈ base.toList, Glob.isPlainChar c = true)
    (isPieces : Path.pieces base = front ++ [name]) (writable : Path.Writable front)
    (isName : Path.IsName name) : request.StandsAt entries system base := by
  refine ⟨isNamed, isBase, ?_⟩
  intro text isInclude isPattern
  refine ⟨noWildcard, ?_, .inl (.inr ⟨name, by simp [isPieces], isName.isStep_eq_true⟩)⟩
  rw [isPieces]
  exact writable.append_names (by simpa using isName)

theorem StandsAt.selects_of_walks {content : FileContent}
    (stands : request.StandsAt entries system base) (keeps : request.KeepsInside)
    (walks : request.Walks (.directory entries) way (.file content))
    (isSource : isSourcePath (way.path base) = true) (isKept : ¬request.LeavesOut base way) :
    (request.moved base).Selects system way.place := by
  have isBase := (FileSystem.lookup_eq_ok_iff.mp stands.isBase).1
  obtain ⟨fits, inside⟩ := walks.inside keeps stands
  refine ⟨way.path base, ?_, Way.route_path isBase fits inside⟩
  exact (stands.mem_files_iff keeps).mpr ⟨way, content, walks, rfl, isSource, isKept⟩

section Copies

def storeEntries : List (String × FileTree) :=
  [("src", .directory [("a.js", .file (.text ""))])]

/-- Copies of the project, in directories with different names. -/
def storeCopies : FileSystem :=
  { root := .directory [("app", .directory storeEntries), ("web", .directory storeEntries),
      ("dist", .directory storeEntries), ("a[1]", .directory storeEntries)]
    current := [] }

def includeScan (text : String) (ignores : List String) : ScanRequest :=
  { base := ".", includes := [text], ignores, ignoreTestFiles := false }

/-- A scan that leaves out old files and everything in a directory for built files. -/
def builtScan : ScanRequest := includeScan "s*" ["src/old", "**/dist/**"]

variable {text : String} {ignores found : List String}

theorem wellNamed_storeCopies : storeCopies.root.WellNamed := by
  have isStore : (FileTree.directory storeEntries).WellNamed := wellNamed_storeProject
  refine .directory (by simp) ?_ (by simpa using isStore)
  simp only [List.forall_mem_cons, List.not_mem_nil, false_implies, implies_true, and_true]
  refine ⟨?_, ?_, ?_, ?_⟩ <;> constructor <;> simp

/-- Ways to write the places of the copies. -/
def copyBases : List String := ["app", "web", "dist", "./app", "/app", "/web", "a[1]", ".//app"]

theorem lookup_storeCopies :
    ∀ base ∈ copyBases, storeCopies.lookup base = .ok (.directory storeEntries) := by
  simp only [copyBases, List.forall_mem_cons, List.not_mem_nil, false_implies, implies_true,
    and_true]
  refine ⟨?_, ?_, ?_, ?_, ?_, ?_, ?_, ?_⟩
  all_goals rw [FileSystem.lookup_eq_follow _ (by simp)]; rfl

theorem pieces_storeCopies :
    Path.pieces "app" = ["app"] ∧ Path.pieces "web" = ["web"] ∧ Path.pieces "dist" = ["dist"] ∧
      Path.pieces "./app" = [".", "app"] ∧ Path.pieces "/app" = ["", "app"] ∧
      Path.pieces "/web" = ["", "web"] := by
  simp only [Path.pieces, Path.segments_eq_map]
  decide +kernel

theorem standsAt_storeCopies :
    request.StandsAt storeEntries storeCopies "app" ∧
      request.StandsAt storeEntries storeCopies "web" ∧
      request.StandsAt storeEntries storeCopies "dist" ∧
      request.StandsAt storeEntries storeCopies "./app" ∧
      request.StandsAt storeEntries storeCopies "/app" ∧
      request.StandsAt storeEntries storeCopies "/web" := by
  have stands {base : String} {front : List String} {name : String} (isCopy : base ∈ copyBases)
      (noWildcard : ∀ c ∈ base.toList, Glob.isPlainChar c = true)
      (isPieces : Path.pieces base = front ++ [name]) (writable : Path.Writable front)
      (isName : Path.IsName name) : request.StandsAt storeEntries storeCopies base :=
    .of_pieces wellNamed_storeCopies (lookup_storeCopies base isCopy) noWildcard isPieces writable
      isName
  have isApp : Path.IsName "app" := by constructor <;> simp
  have isWeb : Path.IsName "web" := by constructor <;> simp
  have isDist : Path.IsName "dist" := by constructor <;> simp
  have isNothing := Path.Writable.nil
  have isHere := @Path.Writable.append [] ["."] isNothing (by simp) (.inr (by simp))
  have isRoot : Path.Writable [""] := .root
  obtain ⟨app, web, dist, here, rootApp, rootWeb⟩ := pieces_storeCopies
  refine ⟨?_, ?_, ?_, ?_, ?_, ?_⟩
  · exact stands (by simp [copyBases]) (by simp [Glob.isPlainChar]) app isNothing isApp
  · exact stands (by simp [copyBases]) (by simp [Glob.isPlainChar]) web isNothing isWeb
  · exact stands (by simp [copyBases]) (by simp [Glob.isPlainChar]) dist isNothing isDist
  · exact stands (by simp [copyBases]) (by simp [Glob.isPlainChar]) here isHere isApp
  · exact stands (by simp [copyBases]) (by simp [Glob.isPlainChar]) rootApp isRoot isApp
  · exact stands (by simp [copyBases]) (by simp [Glob.isPlainChar]) rootWeb isRoot isWeb

theorem components_source :
    Glob.components "s*" = .ok [⟨[.char 's', .anySequence]⟩] := by
  rw [Glob.components_of_relative (by simp [Path.isAbsolute]), Glob.usedPieces,
    Path.segments_eq_map]
  rfl

theorem components_idle :
    Glob.components ".//s*" = .ok [⟨[.char '.']⟩, ⟨[]⟩, ⟨[.char 's', .anySequence]⟩] := by
  rw [Glob.components_of_relative (by simp [Path.isAbsolute]), Glob.usedPieces,
    Path.segments_eq_map]
  rfl

theorem keepsInside_includeScan {parts : List Glob.Component}
    (isPattern : Glob.hasWildcard text = true) (isRelative : Path.isAbsolute text = false)
    (areParts : Glob.components text = .ok parts)
    (stays : Glob.staysInside false 0 parts = true) :
    (includeScan text ignores).KeepsInside := by
  constructor
  · intro other isInclude isPlain
    cases List.mem_singleton.mp isInclude
    rw [isPattern] at isPlain
    cases isPlain
  · intro other isInclude _
    cases List.mem_singleton.mp isInclude
    refine ⟨isRelative, ?_⟩
    intro others areOthers
    cases areParts.symm.trans areOthers
    exact stays

theorem hasWildcard_source :
    Glob.hasWildcard "s*" = true ∧ Glob.hasWildcard ".//s*" = true := by
  rw [Glob.hasWildcard_eq, Glob.hasWildcard_eq]
  simp

theorem keepsInside_source : (includeScan "s*" ignores).KeepsInside :=
  keepsInside_includeScan hasWildcard_source.1 (by simp [Path.isAbsolute]) components_source rfl

theorem keepsInside_idle : (includeScan ".//s*" ignores).KeepsInside :=
  keepsInside_includeScan hasWildcard_source.2 (by simp [Path.isAbsolute]) components_idle rfl

theorem eq_of_node?_source {names : List String} {content : FileContent}
    (isNode : (FileTree.directory [("a.js", .file (.text ""))]).node? names =
      some (.file content)) : names = ["a.js"] := by
  cases names with
  | nil => cases isNode
  | cons name names =>
      obtain ⟨child, isChild, isNode⟩ := Option.bind_eq_some_iff.mp isNode
      cases List.mem_singleton.mp (FileTree.mem_of_child? isChild)
      cases names with
      | nil => rfl
      | cons name names => cases isNode

/-- There is one way to the file. -/
theorem eq_of_walks_source {content : FileContent}
    (walks : (includeScan "s*" ignores).Walks (.directory storeEntries) way (.file content)) :
    way = .globbed ["src"] ["a.js"] := by
  cases walks with
  | direct noIncludes => cases noIncludes
  | plain isInclude isPlain =>
      cases List.mem_singleton.mp isInclude
      rw [hasWildcard_source.1] at isPlain
      cases isPlain
  | globbed isInclude isPattern isFound isFirst isNode =>
      cases List.mem_singleton.mp isInclude
      obtain ⟨parts, areParts, reaches⟩ := isFound.isReached
      cases components_source.symm.trans areParts
      cases reaches with
      | entry _ _ isDirectory isEntry fits _ reaches =>
          cases reaches
          cases isDirectory
          cases List.mem_singleton.mp isEntry
          cases isFirst
          rw [eq_of_node?_source isNode]
          rfl
      | special _ _ _ isSpecial => cases isSpecial
      | anywhere isRecursive => cases isRecursive
      | further isRecursive => cases isRecursive
      | plain _ isPlain => cases isPlain

theorem walks_source :
    (includeScan "s*" ignores).Walks (.directory storeEntries) (.globbed ["src"] ["a.js"])
      (.file (.text "")) := by
  have reaches : Glob.Reaches (.directory storeEntries) false [] [⟨[.char 's', .anySequence]⟩]
      ["src"] :=
    .entry rfl (.inr rfl) rfl List.mem_cons_self rfl (.inl rfl) .done
  apply Walks.globbed List.mem_cons_self hasWildcard_source.1 _ rfl rfl
  exact ⟨rfl, ⟨_, components_source, reaches⟩, ⟨_, rfl⟩⟩

theorem walks_idle :
    (includeScan ".//s*" ignores).Walks (.directory storeEntries)
      (.globbed [".", "", "src"] ["a.js"]) (.file (.text "")) := by
  have reaches : Glob.Reaches (.directory storeEntries) false []
      [⟨[.char '.']⟩, ⟨[]⟩, ⟨[.char 's', .anySequence]⟩] [".", "", "src"] := by
    refine .plain rfl rfl ⟨_, rfl⟩ (.plain rfl rfl ⟨_, rfl⟩ ?_)
    exact .entry rfl (.inr rfl) rfl List.mem_cons_self rfl (.inl rfl) .done
  apply Walks.globbed List.mem_cons_self hasWildcard_source.2 _ rfl rfl
  exact ⟨rfl, ⟨_, components_idle, reaches⟩, ⟨_, rfl⟩⟩

/-- The paths at which the file is found. -/
theorem path_storeCopies :
    Way.path "app" (.globbed ["src"] ["a.js"]) = "app/src/a.js" ∧
      Way.path "web" (.globbed ["src"] ["a.js"]) = "web/src/a.js" ∧
      Way.path "dist" (.globbed ["src"] ["a.js"]) = "dist/src/a.js" ∧
      Way.path "./app" (.globbed ["src"] ["a.js"]) = "app/src/a.js" ∧
      Way.path "app" (.globbed [".", "", "src"] ["a.js"]) = "app/./src/a.js" ∧
      Way.path "/app" (.globbed ["src"] ["a.js"]) = "/app/src/a.js" ∧
      Way.path "/web" (.globbed ["src"] ["a.js"]) = "/web/src/a.js" := by
  simp only [Way.path, pieces_storeCopies, Glob.spell, List.cons_append, List.nil_append,
    List.head?_cons, List.tail_cons, List.foldl_cons, List.foldl_nil, Glob.childPath,
    Path.components, Path.segments_eq_map]
  decide +kernel

theorem isSourcePath_storeCopies :
    isSourcePath "app/src/a.js" = true ∧ isSourcePath "app/./src/a.js" = true := by
  have arePieces : "a.js".splitOn "." = ["a", "js"] := (splitOn_eq_map "a.js" '.').trans rfl
  have areNames : Path.fileName? "app/src/a.js" = some "a.js" ∧
      Path.fileName? "app/./src/a.js" = some "a.js" := by
    simp only [Path.fileName?, Path.components, Path.segments_eq_map]
    decide +kernel
  simp [isSourcePath, Path.extension?, areNames, arePieces, sourceExtensions]

/-- Only the name of the third copy is that of a directory for built files. -/
theorem leavesOut_builtScan :
    ¬builtScan.LeavesOut "app" (.globbed ["src"] ["a.js"]) ∧
      ¬builtScan.LeavesOut "web" (.globbed ["src"] ["a.js"]) ∧
      builtScan.LeavesOut "dist" (.globbed ["src"] ["a.js"]) := by
  simp only [LeavesOut, path_storeCopies, IgnoreSet.ignores, IgnoreSet.ofRequest, builtScan,
    includeScan, moved, funext Glob.hasWildcard_eq, Path.startsWith, Path.components,
    Path.segments_eq_map]
  decide +kernel

/-- The path of the file has lost the `.` of the base. -/
theorem leavesOut_source :
    (includeScan "s*" ["src"]).LeavesOut "app" (.globbed ["src"] ["a.js"]) ∧
      ¬(includeScan "s*" ["src"]).LeavesOut "./app" (.globbed ["src"] ["a.js"]) := by
  simp only [LeavesOut, path_storeCopies, IgnoreSet.ignores, IgnoreSet.ofRequest, includeScan,
    moved, funext Glob.hasWildcard_eq, Path.startsWith, Path.components, Path.segments_eq_map]
  decide +kernel

/-- The path from the root leads into one of the copies. -/
theorem leavesOut_root :
    ¬(includeScan "s*" ["/app/src"]).LeavesOut "/web" (.globbed ["src"] ["a.js"]) ∧
      (includeScan "s*" ["/app/src"]).LeavesOut "/app" (.globbed ["src"] ["a.js"]) := by
  simp only [LeavesOut, path_storeCopies, IgnoreSet.ignores, IgnoreSet.ofRequest, includeScan,
    moved, funext Glob.hasWildcard_eq, Path.startsWith, Path.components, Path.segments_eq_map]
  decide +kernel

theorem not_leavesOut_nothing : ¬(includeScan text []).LeavesOut base way := by
  simp [LeavesOut, IgnoreSet.ofRequest, IgnoreSet.ignores, IgnoreSet.patternsOf, moved, includeScan]

/-- The first two copies have the same file. -/
theorem selects_moved_iff_storeCopies :
    (builtScan.moved "app").Selects storeCopies ["src", "a.js"] ↔
      (builtScan.moved "web").Selects storeCopies ["src", "a.js"] := by
  obtain ⟨standsApp, standsWeb, _⟩ := @standsAt_storeCopies builtScan
  obtain ⟨notApp, notWeb, _⟩ := leavesOut_builtScan
  apply (selects_moved_iff builtScan keepsInside_source standsApp standsWeb).1
  intro way content walks _
  rw [eq_of_walks_source walks]
  exact iff_of_false notApp notWeb

/-- The directories hold the same project, but a scan finds different files in them. -/
structure TellsApart (request : ScanRequest) (system : FileSystem) (base : String)
    (copy : FileSystem) (other : String) : Prop where
  isNamed : system.root.WellNamed ∧ copy.root.WellNamed
  isBase : system.lookup base = .ok (.directory storeEntries)
  isOther : copy.lookup other = .ok (.directory storeEntries)
  notAlike : ¬request.SelectsAlike system base copy other

theorem selects_source
    (stands : (includeScan "s*" ignores).StandsAt storeEntries storeCopies base)
    (isKept : ¬(includeScan "s*" ignores).LeavesOut base (.globbed ["src"] ["a.js"])) :
    ((includeScan "s*" ignores).moved base).Selects storeCopies ["src", "a.js"] := by
  obtain ⟨standsApp, _⟩ := @standsAt_storeCopies (includeScan "s*" ignores)
  have isNamed := stands.isNamed.lookup stands.isBase
  have fits := (walks_source.inside keepsInside_source stands).1
  have fitsApp := (walks_source.inside keepsInside_source standsApp).1
  apply stands.selects_of_walks keepsInside_source walks_source _ isKept
  rw [Way.isSourcePath_path fits fitsApp ((@walks_source ignores).steps_ne_nil isNamed),
    path_storeCopies.1]
  exact isSourcePath_storeCopies.1

/-- Copies are told apart by a scan that leaves out the file of one of them. -/
theorem tellsApart_of_leavesOut
    (stands : (includeScan "s*" ignores).StandsAt storeEntries storeCopies base)
    (standsOther : (includeScan "s*" ignores).StandsAt storeEntries storeCopies other)
    (isKept : ¬(includeScan "s*" ignores).LeavesOut base (.globbed ["src"] ["a.js"]))
    (isLeftOut : (includeScan "s*" ignores).LeavesOut other (.globbed ["src"] ["a.js"])) :
    (includeScan "s*" ignores).TellsApart storeCopies base storeCopies other := by
  refine ⟨⟨wellNamed_storeCopies, wellNamed_storeCopies⟩, stands.isBase, standsOther.isBase, ?_⟩
  intro alike
  obtain ⟨path, isFile, _⟩ := (alike _).mp (selects_source stands isKept)
  obtain ⟨way, content, walks, _, _, notLeftOut⟩ :=
    (standsOther.mem_files_iff keepsInside_source).mp isFile
  rw [eq_of_walks_source walks] at notLeftOut
  exact notLeftOut isLeftOut

theorem tellsApart_dist : builtScan.TellsApart storeCopies "app" storeCopies "dist" := by
  obtain ⟨standsApp, _, standsDist, _⟩ := @standsAt_storeCopies builtScan
  obtain ⟨notApp, _, isDist⟩ := leavesOut_builtScan
  exact tellsApart_of_leavesOut standsApp standsDist notApp isDist

theorem tellsApart_here :
    (includeScan "s*" ["src"]).TellsApart storeCopies "./app" storeCopies "app" := by
  obtain ⟨standsApp, _, _, standsHere, _⟩ := @standsAt_storeCopies (includeScan "s*" ["src"])
  exact tellsApart_of_leavesOut standsHere standsApp leavesOut_source.2 leavesOut_source.1

theorem tellsApart_root :
    (includeScan "s*" ["/app/src"]).TellsApart storeCopies "/web" storeCopies "/app" := by
  obtain ⟨_, _, _, _, standsApp, standsWeb⟩ :=
    @standsAt_storeCopies (includeScan "s*" ["/app/src"])
  exact tellsApart_of_leavesOut standsWeb standsApp leavesOut_root.1 leavesOut_root.2

theorem lookup_here (isHere : system.current = [])
    (isRoot : system.root = .directory entries) :
    system.lookup "." = .ok (.directory entries) := by
  rw [FileSystem.lookup_of_ne_empty (by simp), Path.segments_of_noSeparator (by simp),
    FileSystem.fromRoot_of_relative (by simp), isHere, isRoot]
  rfl

theorem starts_of_pathsFrom {parts : List Glob.Component}
    (isPattern : Glob.hasWildcard text = true)
    (isRelative : Path.isAbsolute (Path.join base text) = false)
    (areParts : Glob.components (Path.join base text) = .ok parts)
    (noPaths : Glob.pathsFrom system false "." parts = []) :
    ((includeScan text ignores).moved base).starts system = [] := by
  apply List.eq_nil_iff_forall_not_mem.mpr
  intro start isStart
  cases mem_starts_iff.mp isStart with
  | inl noIncludes => cases noIncludes.1
  | inr isInclude =>
      cases isInclude with
      | inl isPlain =>
          obtain ⟨other, isInclude, isPlain, _⟩ := isPlain
          cases List.mem_singleton.mp isInclude
          rw [isPattern] at isPlain
          cases isPlain
      | inr isNamed =>
          obtain ⟨other, isInclude, _, paths, arePaths, isStart⟩ := isNamed
          cases List.mem_singleton.mp isInclude
          obtain ⟨_, _, isRest⟩ := bind_eq_ok_iff.mp arePaths
          obtain ⟨others, areOthers, isFiltered⟩ := bind_eq_ok_iff.mp isRest
          cases areParts.symm.trans areOthers
          cases isFiltered
          have isHere : Glob.startOf (Path.join base text) = "." := by
            rw [Glob.startOf, isRelative]
            rfl
          have isPath := List.mem_of_mem_filter isStart
          rw [show ((includeScan text ignores).moved base).base = base from rfl, isHere, noPaths]
            at isPath
          cases isPath

/-- The file of the first copy is found, and nothing is read from the other one. -/
theorem tellsApart_of_starts (isNamed : copy.root.WellNamed)
    (isOther : copy.lookup other = .ok (.directory storeEntries))
    (isSelected : ((includeScan text []).moved "app").Selects storeCopies place)
    (noStarts : ((includeScan text []).moved other).starts copy = []) :
    (includeScan text []).TellsApart storeCopies "app" copy other := by
  refine ⟨⟨wellNamed_storeCopies, isNamed⟩, lookup_storeCopies _ (by simp [copyBases]), isOther, ?_⟩
  intro alike
  obtain ⟨path, isFile, _⟩ := (alike place).mp isSelected
  obtain ⟨node, ⟨start, isStart, _⟩, _⟩ := mem_files_scan_iff.mp isFile
  rw [noStarts] at isStart
  cases isStart

/-- The bracket in the name of the base is read as a pattern. -/
theorem tellsApart_bracket :
    (includeScan "s*" []).TellsApart storeCopies "app" storeCopies "a[1]" := by
  have isRelative : Path.isAbsolute (Path.join "a[1]" "s*") = false := by decide +kernel
  have areParts : Glob.components (Path.join "a[1]" "s*") =
      .ok [⟨[.char 'a', .within [.single '1']]⟩, ⟨[.char 's', .anySequence]⟩] := by
    rw [Glob.components_of_relative isRelative, Glob.usedPieces, Path.segments_eq_map]
    decide +kernel
  have noneFits : ((Glob.childrenOf storeCopies ".").filter fun child =>
      Glob.Component.fits ⟨[.char 'a', .within [.single '1']]⟩ child.2) = [] := by
    rw [Glob.childrenOf, lookup_here rfl rfl, List.filter_eq_nil_iff]
    simp only [List.forall_mem_map]
    decide
  have noPaths : Glob.pathsFrom storeCopies false "."
      [⟨[.char 'a', .within [.single '1']]⟩, ⟨[.char 's', .anySequence]⟩] = [] := by
    rw [Glob.pathsFrom]
    simp [noneFits, Glob.Component.isRecursive, Glob.Component.plain?, Glob.plainText?,
      Glob.Component.specials]
  exact tellsApart_of_starts wellNamed_storeCopies (lookup_storeCopies _ (by simp [copyBases]))
    (selects_source standsAt_storeCopies.1 not_leavesOut_nothing)
    (starts_of_pathsFrom hasWildcard_source.1 isRelative areParts noPaths)

/-- The empty text names nothing. -/
theorem pathsFrom_idle {here : List Glob.Component}
    (isDirectory : Glob.namesDirectory system "." = true)
    (areHere : ∀ part ∈ here, part = Glob.plainComponent ".") (rest : List Glob.Component) :
    Glob.pathsFrom system false "." (here ++ Glob.plainComponent "" :: rest) = [] := by
  induction here with
  | nil =>
      have notHeld : system.holds "" = false := rfl
      simp [Glob.pathsFrom, Glob.isRecursive_plainComponent, Glob.plain?_plainComponent,
        Glob.childPath_here, notHeld]
  | cons part here induction =>
      rw [areHere part List.mem_cons_self, List.cons_append]
      simpa [Glob.pathsFrom, Glob.isRecursive_plainComponent, Glob.plain?_plainComponent,
        Glob.childPath_here, isDirectory] using
        induction fun part isLater => areHere part (List.mem_cons_of_mem _ isLater)

/-- An empty component stands behind the `.` of the base. -/
theorem tellsApart_empty :
    (includeScan "s*" []).TellsApart storeCopies "app" storeCopies ".//app" := by
  have isRelative : Path.isAbsolute (Path.join ".//app" "s*") = false := by decide +kernel
  have areParts : Glob.components (Path.join ".//app" "s*") =
      .ok ([Glob.plainComponent "."] ++ Glob.plainComponent "" ::
        [Glob.plainComponent "app", ⟨[.char 's', .anySequence]⟩]) := by
    rw [Glob.components_of_relative isRelative, Glob.usedPieces, Path.segments_eq_map]
    decide +kernel
  have isDirectory := Glob.namesDirectory_iff.mpr ⟨_, @lookup_here storeCopies _ rfl rfl⟩
  exact tellsApart_of_starts wellNamed_storeCopies (lookup_storeCopies _ (by simp [copyBases]))
    (selects_source standsAt_storeCopies.1 not_leavesOut_nothing)
    (starts_of_pathsFrom hasWildcard_source.1 isRelative areParts
      (pathsFrom_idle isDirectory (by simp) _))

/-- An empty component of the include stands behind the `.` that is the base. -/
theorem tellsApart_idle :
    (includeScan ".//s*" []).TellsApart storeCopies "app" storeProject "." := by
  have isRelative : Path.isAbsolute (Path.join "." ".//s*") = false := by decide +kernel
  have areParts : Glob.components (Path.join "." ".//s*") =
      .ok ([Glob.plainComponent ".", Glob.plainComponent "."] ++ Glob.plainComponent "" ::
        [⟨[.char 's', .anySequence]⟩]) := by
    rw [Glob.components_of_relative isRelative, Glob.usedPieces, Path.segments_eq_map]
    decide +kernel
  have isHere := @lookup_here storeProject _ rfl rfl
  have isDirectory := Glob.namesDirectory_iff.mpr ⟨_, isHere⟩
  have isSource : isSourcePath (Way.path "app" (.globbed [".", "", "src"] ["a.js"])) = true := by
    rw [path_storeCopies.2.2.2.2.1]
    exact isSourcePath_storeCopies.2
  have isSelected := standsAt_storeCopies.1.selects_of_walks keepsInside_idle walks_idle isSource
    not_leavesOut_nothing
  exact tellsApart_of_starts wellNamed_storeProject isHere isSelected
    (starts_of_pathsFrom hasWildcard_source.2 isRelative areParts
      (pathsFrom_idle isDirectory (by simp) _))

theorem hasWildcard_outside : Glob.hasWildcard "../app/src" = false := by
  rw [Glob.hasWildcard_eq]
  simp

theorem eq_of_mem_starts_outside
    (isStart : start ∈ ((includeScan "../app/src" []).moved base).starts system) :
    start = Path.join base "../app/src" := by
  cases mem_starts_iff.mp isStart with
  | inl noIncludes => cases noIncludes.1
  | inr isInclude =>
      cases isInclude with
      | inl isPlain =>
          obtain ⟨text, isInclude, _, _, isJoined⟩ := isPlain
          cases List.mem_singleton.mp isInclude
          exact isJoined
      | inr isPattern =>
          obtain ⟨text, isInclude, isPattern, _⟩ := isPattern
          cases List.mem_singleton.mp isInclude
          rw [hasWildcard_outside] at isPattern
          cases isPattern

/-- The include leads out of the base and into the first copy. -/
theorem tellsApart_outside :
    (includeScan "../app/src" []).TellsApart storeCopies "app" storeCopies "web" := by
  obtain ⟨standsApp, standsWeb, _⟩ := @standsAt_storeCopies (includeScan "../app/src" [])
  refine ⟨⟨wellNamed_storeCopies, wellNamed_storeCopies⟩, standsApp.isBase, standsWeb.isBase, ?_⟩
  have isJoined : Path.join "app" "../app/src" = "app/../app/src" ∧
      Path.join "app/../app/src" "a.js" = "app/../app/src/a.js" ∧
      Path.join "web" "../app/src" = "web/../app/src" := by decide +kernel
  have isFirst : storeCopies.lookup "app/../app/src" =
      .ok (.directory [("a.js", .file (.text ""))]) := by
    rw [FileSystem.lookup_eq_follow _ (by simp)]
    rfl
  have areRoutes : storeCopies.route "app/../app/src/a.js" = ["app", "src", "a.js"] ∧
      storeCopies.route "web/../app/src" = ["app", "src"] ∧ storeCopies.route "app" = ["app"] ∧
      storeCopies.route "web" = ["web"] := by
    simp only [FileSystem.route, Path.pieces, Path.segments_eq_map]
    decide +kernel
  have isStart : "app/../app/src" ∈
      ((includeScan "../app/src" []).moved "app").starts storeCopies := by
    apply mem_starts_iff.mpr
    refine .inr (.inl ⟨_, List.mem_singleton.mpr rfl, hasWildcard_outside, ?_, isJoined.1.symm⟩)
    rw [show ((includeScan "../app/src" []).moved "app").base = "app" from rfl, isJoined.1,
      FileSystem.holds, isFirst]
    rfl
  have isSelected :
      ((includeScan "../app/src" []).moved "app").Selects storeCopies ["src", "a.js"] := by
    refine ⟨"app/../app/src/a.js", ?_, areRoutes.1.trans ?_⟩
    · apply mem_files_scan_iff.mpr
      refine ⟨.file (.text ""), (visits_iff wellNamed_storeCopies).mpr
        ⟨_, isStart, _, isFirst, ["a.js"], rfl, isJoined.2.1.symm⟩, ?_, ?_⟩
      · rw [← isJoined.2.1]
        exact isSourceFile_storeProject (by simp)
      · simp [IgnoreSet.ofRequest, IgnoreSet.ignores, IgnoreSet.patternsOf, moved, includeScan]
    · exact (congrArg (· ++ ["src", "a.js"]) areRoutes.2.2.1).symm
  intro alike
  obtain ⟨path, isFile, isPlace⟩ := (alike _).mp isSelected
  obtain ⟨start, isStart, names, areNames, rfl⟩ :=
    exists_start_of_mem_files wellNamed_storeCopies isFile
  rw [eq_of_mem_starts_outside isStart, isJoined.2.2, FileSystem.route_below areNames,
    areRoutes.2.1] at isPlace
  have isWeb : storeCopies.route ((includeScan "../app/src" []).moved "web").base = ["web"] :=
    areRoutes.2.2.2
  rw [isWeb] at isPlace
  simp at isPlace

/-- Each of the conditions under which copies have the same files is needed. -/
theorem not_selectsAlike_storeCopies :
    builtScan.TellsApart storeCopies "app" storeCopies "dist" ∧
      (includeScan "s*" ["src"]).TellsApart storeCopies "./app" storeCopies "app" ∧
      (includeScan "s*" ["/app/src"]).TellsApart storeCopies "/web" storeCopies "/app" ∧
      (includeScan "s*" []).TellsApart storeCopies "app" storeCopies "a[1]" ∧
      (includeScan "s*" []).TellsApart storeCopies "app" storeCopies ".//app" ∧
      (includeScan ".//s*" []).TellsApart storeCopies "app" storeProject "." ∧
      (includeScan "../app/src" []).TellsApart storeCopies "app" storeCopies "web" :=
  ⟨tellsApart_dist, tellsApart_here, tellsApart_root, tellsApart_bracket, tellsApart_empty,
    tellsApart_idle, tellsApart_outside⟩

end Copies

end ScanRequest

end StoreLint
