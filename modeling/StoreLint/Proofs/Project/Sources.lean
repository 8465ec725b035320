import StoreLint.Proofs.Project.Runs

/-!
# Sources on demand

The files of a project are read and parsed when the parsed files are first asked for, and
the files that failed are kept beside them.  Both answers live in cells that are written
once: a cell that holds something is never written again.

The cell of the failures has two writers, the reading of the files and a question for the
failures that comes before it.  A question that comes first fills the cell with nothing,
and what the reading finds later has no place to go.  So a file is accounted for in every
run of questions that begins with the parsed files, and in any other run just if it can be
parsed.
-/

namespace StoreLint

/-- A file that cannot be read or parsed. -/
structure ParseFailure where
  file : String
  error : SourceError

/-- What the files of a project are read into. -/
structure SourceRecord where
  parsed : List (String × ParsedSource) := []
  failures : List ParseFailure := []

def SourceRecord.read (system : FileSystem) (record : SourceRecord) (file : String) :
    SourceRecord :=
  match system.parseFile file with
  | .ok parsed => { record with parsed := record.parsed ++ [(file, parsed)] }
  | .error error => { record with failures := record.failures ++ [⟨file, error⟩] }

def FileSystem.readAll (system : FileSystem) (files : List String) : SourceRecord :=
  files.foldl (SourceRecord.read system) {}

/-- The answers that have been given, each in a cell of its own. -/
structure SourceCells where
  parsed : Option (List (String × ParsedSource)) := none
  failures : Option (List ParseFailure) := none

/-- Asks for the parsed files.  If they are asked for the first time all files are read, and the
failures are written to their cell unless it holds something. -/
def parsedFiles (system : FileSystem) (files : List String) :
    StateM SourceCells (List (String × ParsedSource)) := fun cells =>
  match cells.parsed with
  | some parsed => (parsed, cells)
  | none =>
      let record := system.readAll files
      (record.parsed,
        { parsed := some record.parsed
          failures := some (cells.failures.getD record.failures) })

def parseFailures : StateM SourceCells (List ParseFailure) := fun cells =>
  match cells.failures with
  | some failures => (failures, cells)
  | none => ([], { cells with failures := some [] })

/-- The questions that can be asked. -/
inductive Question where
  | parsed
  | failures
deriving DecidableEq

def Question.ask (system : FileSystem) (files : List String) (cells : SourceCells) :
    Question → SourceCells
  | .parsed => (parsedFiles system files cells).2
  | .failures => (parseFailures cells).2

/-- The cells after questions have been asked in a row. -/
def SourceCells.after (system : FileSystem) (files : List String) (questions : List Question) :
    SourceCells :=
  questions.foldl (Question.ask system files) {}

/-- Each file is parsed and has no failure, or is not parsed and has exactly one. -/
def Accounted (files : List String) (parsed : List (String × ParsedSource))
    (failures : List ParseFailure) : Prop :=
  ∀ file ∈ files,
    (file ∈ parsed.map Prod.fst ∧ (failures.map ParseFailure.file).count file = 0) ∨
      (file ∉ parsed.map Prod.fst ∧ (failures.map ParseFailure.file).count file = 1)

/-- The issues of the files that have been read. -/
def SourceRecord.issues (sections : DocSections) (rules : List Rule) (record : SourceRecord) :
    List Issue :=
  (record.parsed.flatMap fun source =>
      (source.2.lint source.1 sections rules).diagnostics.map (source.2.issue source.1)) ++
    record.failures.map fun failure => .parseError failure.file failure.error.message

/-- What a record holds after the files have been read. -/
structure SourceRecord.Holds (system : FileSystem) (files : List String) (record : SourceRecord) :
    Prop where
  parsed : ∀ file parsed,
    (file, parsed) ∈ record.parsed ↔ file ∈ files ∧ system.parseFile file = .ok parsed
  failures : record.failures.map ParseFailure.file =
    files.filter fun file => !(system.parseFile file).isOk
  issues : ∀ sections rules, (record.issues sections rules).Perm
    (files.flatMap fun file => (system.checkFile sections rules file).issues)

section Reading

variable {system : FileSystem} {files : List String}

namespace SourceRecord

theorem read_of_ok {file : String} {parsed : ParsedSource}
    (isParsed : system.parseFile file = .ok parsed) (record : SourceRecord) :
    record.read system file = { record with parsed := record.parsed ++ [(file, parsed)] } := by
  rw [read, isParsed]

theorem read_of_error {file : String} {error : SourceError}
    (fails : system.parseFile file = .error error) (record : SourceRecord) :
    record.read system file = { record with failures := record.failures ++ [⟨file, error⟩] } := by
  rw [read, fails]

/-- Reading a file adds its issues, though not at the end. -/
theorem perm_issues_read (record : SourceRecord) (file : String) (sections : DocSections)
    (rules : List Rule) :
    ((record.read system file).issues sections rules).Perm
      (record.issues sections rules ++ (system.checkFile sections rules file).issues) := by
  cases outcome : system.parseFile file with
  | ok parsed =>
      rw [read_of_ok outcome, FileSystem.checkFile_issues_of_ok outcome, issues, issues,
        List.flatMap_append, List.flatMap_singleton, List.append_assoc, List.append_assoc]
      exact List.perm_append_comm.append_left _
  | error error =>
      rw [read_of_error outcome, FileSystem.checkFile_issues_of_error outcome, issues, issues,
        List.map_append, List.append_assoc]
      exact .refl _

theorem Holds.read {record : SourceRecord} (holds : record.Holds system files) (file : String) :
    (record.read system file).Holds system (files ++ [file]) := by
  constructor
  · intro other parsed
    cases outcome : system.parseFile file with
    | ok source =>
        rw [read_of_ok outcome]
        simp only [List.mem_append, List.mem_singleton, holds.parsed, Prod.mk.injEq]
        constructor
        · rintro (⟨isFile, isParsed⟩ | ⟨rfl, rfl⟩)
          · exact ⟨.inl isFile, isParsed⟩
          · exact ⟨.inr rfl, outcome⟩
        · rintro ⟨isFile | rfl, isParsed⟩
          · exact .inl ⟨isFile, isParsed⟩
          · exact .inr ⟨rfl, Except.ok.inj (isParsed.symm.trans outcome)⟩
    | error error =>
        rw [read_of_error outcome]
        simp only [holds.parsed, List.mem_append, List.mem_singleton]
        constructor
        · rintro ⟨isFile, isParsed⟩
          exact ⟨.inl isFile, isParsed⟩
        · rintro ⟨isFile | rfl, isParsed⟩
          · exact ⟨isFile, isParsed⟩
          · cases isParsed.symm.trans outcome
  · rw [List.filter_append, ← holds.failures]
    cases outcome : system.parseFile file with
    | ok source => simp [read_of_ok outcome, outcome, Except.isOk, Except.toBool]
    | error error => simp [read_of_error outcome, outcome, Except.isOk, Except.toBool]
  · intro sections rules
    rw [List.flatMap_append, List.flatMap_singleton]
    exact (record.perm_issues_read file sections rules).trans
      ((holds.issues sections rules).append_right _)

theorem Holds.foldl_read {record : SourceRecord} (holds : record.Holds system files)
    (others : List String) :
    (others.foldl (SourceRecord.read system) record).Holds system (files ++ others) := by
  induction others generalizing record files with
  | nil =>
      rw [List.append_nil]
      exact holds
  | cons file others induction =>
      have rest := induction (holds.read file)
      rw [List.append_assoc] at rest
      exact rest

end SourceRecord

theorem FileSystem.holds_readAll (system : FileSystem) (files : List String) :
    (system.readAll files).Holds system files := by
  have nothing : SourceRecord.Holds system [] {} := by
    constructor
    · simp
    · rfl
    · intro sections rules
      exact .refl _
  exact nothing.foldl_read files

end Reading

section Questions

variable {system : FileSystem} {files : List String} {questions : List Question}

/-- Once there is something in the cell of the failures it stays, and the other cell is filled by
the first question for the parsed files. -/
theorem foldl_ask (questions : List Question) (cell : Option (List (String × ParsedSource)))
    (failures : List ParseFailure) :
    questions.foldl (Question.ask system files) ⟨cell, some failures⟩ =
      ⟨if .parsed ∈ questions then some (cell.getD (system.readAll files).parsed) else cell,
        some failures⟩ := by
  induction questions generalizing cell with
  | nil => rfl
  | cons question questions induction =>
      -- The cell of the failures is filled, so a first question for the parsed files reads them all
      -- and throws the failures away.
      cases question with
      | parsed =>
          have asked : Question.ask system files ⟨cell, some failures⟩ .parsed =
              ⟨some (cell.getD (system.readAll files).parsed), some failures⟩ := by
            cases cell with
            | none => rfl
            | some parsed => rfl
          rw [List.foldl_cons, asked, induction, if_pos (List.mem_cons_self ..)]
          split
          · rfl
          · rfl
      | failures =>
          rw [List.foldl_cons]
          change questions.foldl (Question.ask system files) ⟨cell, some failures⟩ = _
          rw [induction]
          simp

theorem after_eq (isAsked : .parsed ∈ questions) :
    SourceCells.after system files questions =
      ⟨some (system.readAll files).parsed,
        some (if questions.head? = some .parsed then (system.readAll files).failures else [])⟩ := by
  cases questions with
  | nil => cases isAsked
  | cons question questions =>
      cases question with
      | parsed =>
          rw [SourceCells.after, List.foldl_cons]
          change questions.foldl (Question.ask system files)
            ⟨some (system.readAll files).parsed, some (system.readAll files).failures⟩ = _
          rw [foldl_ask]
          simp
      | failures =>
          rw [SourceCells.after, List.foldl_cons]
          change questions.foldl (Question.ask system files) ⟨none, some []⟩ = _
          rw [foldl_ask, if_pos (by simpa using isAsked)]
          simp

/-- If all failures are there each file is accounted for. -/
theorem accounted_readAll (distinct : files.Nodup) :
    Accounted files (system.readAll files).parsed (system.readAll files).failures := by
  have holds := system.holds_readAll files
  intro file isFile
  rw [holds.failures]
  cases outcome : system.parseFile file with
  | ok parsed =>
      refine .inl ⟨?_, ?_⟩
      · exact List.mem_map.mpr ⟨(file, parsed), (holds.parsed _ _).mpr ⟨isFile, outcome⟩, rfl⟩
      · apply List.count_eq_zero_of_not_mem
        simp [outcome, Except.isOk, Except.toBool]
  | error error =>
      refine .inr ⟨?_, ?_⟩
      · intro isKey
        obtain ⟨⟨_, parsed⟩, isParsed, rfl⟩ := List.mem_map.mp isKey
        cases ((holds.parsed _ _).mp isParsed).2.symm.trans outcome
      · apply List.count_eq_one_of_mem (distinct.filter _)
        simp [isFile, outcome, Except.isOk, Except.toBool]

/-- If none of the failures is there the files that can be parsed are accounted for. -/
theorem accounted_nil_iff :
    Accounted files (system.readAll files).parsed [] ↔
      ∀ file ∈ files, ∃ parsed, system.parseFile file = .ok parsed := by
  have holds := system.holds_readAll files
  apply forall₂_congr
  intro file isFile
  constructor
  · rintro (⟨isKey, _⟩ | ⟨_, isOne⟩)
    · obtain ⟨⟨_, parsed⟩, isParsed, rfl⟩ := List.mem_map.mp isKey
      exact ⟨parsed, ((holds.parsed _ _).mp isParsed).2⟩
    · cases isOne
  · rintro ⟨parsed, isParsed⟩
    refine .inl ⟨?_, rfl⟩
    exact List.mem_map.mpr ⟨(file, parsed), (holds.parsed _ _).mpr ⟨isFile, isParsed⟩, rfl⟩

end Questions

/-- Collects the issues of a project: asks for the parsed files, lints them, and then asks for the
files that failed. -/
def collectIssues (system : FileSystem) (files : List String) (sections : DocSections)
    (rules : List Rule) : StateM SourceCells (List Issue) := do
  let parsed ← parsedFiles system files
  let failures ← parseFailures
  return SourceRecord.issues sections rules { parsed, failures }

/-- Whatever is asked and in whatever order, the answers about a file add up to exactly one just if
the parsed files were asked for first or the file can be parsed.  A check asks for the parsed files
first and finds all its issues. -/
theorem accounted_after_iff (system : FileSystem) {files : List String} (distinct : files.Nodup)
    {questions : List Question} (isAsked : .parsed ∈ questions) :
    (Accounted files (parsedFiles system files (.after system files questions)).1
        (parseFailures (.after system files questions)).1 ↔
      questions.head? = some .parsed ∨
        ∀ file ∈ files, ∃ parsed, system.parseFile file = .ok parsed) ∧
      (∀ file parsed,
        (file, parsed) ∈ (parsedFiles system files (.after system files questions)).1 ↔
          file ∈ files ∧ system.parseFile file = .ok parsed) ∧
      (questions.head? = some .failures →
        (parseFailures (.after system files questions)).1 = []) ∧
      ∀ base selected check, system.checkProject base selected = .ok check →
        (check.checks.flatMap FileCheck.issues).Perm
          (collectIssues system check.scan.files check.loaded.config.sections
            (Rule.selected selected) {}).1 := by
  have holds := system.holds_readAll files
  rw [after_eq isAsked]
  change (Accounted files (system.readAll files).parsed (if questions.head? = some .parsed then
      (system.readAll files).failures else []) ↔ _) ∧ _ ∧ _ ∧ _
  refine ⟨?_, holds.parsed, ?_, ?_⟩
  · by_cases first : questions.head? = some .parsed
    · rw [if_pos first]
      exact ⟨fun _ => .inl first, fun _ => accounted_readAll distinct⟩
    · rw [if_neg first, accounted_nil_iff]
      exact ⟨.inr, fun decided => decided.resolve_left first⟩
  · intro first
    have notFirst : questions.head? ≠ some .parsed := by
      rw [first]
      decide
    exact if_neg notFirst
  · intro base selected check succeeds
    obtain ⟨loaded, _, isCheck⟩ := bind_eq_ok_iff.mp succeeds
    cases isCheck
    rw [List.flatMap_map]
    exact ((system.holds_readAll _).issues _ _).symm

/-- A file that cannot be read is lost if the failures are asked for first. -/
theorem accounted_after_iff_unreadable :
    ["a/b.js"].Nodup ∧ Question.parsed ∈ [Question.failures, .parsed] ∧
      Question.parsed ∈ [Question.parsed, .failures] ∧
      ¬Accounted ["a/b.js"]
        (parsedFiles plainProject ["a/b.js"]
          (.after plainProject ["a/b.js"] [.failures, .parsed])).1
        (parseFailures (.after plainProject ["a/b.js"] [.failures, .parsed])).1 ∧
      (parseFailures (.after plainProject ["a/b.js"] [.failures, .parsed])).1 = [] ∧
      Accounted ["a/b.js"]
        (parsedFiles plainProject ["a/b.js"]
          (.after plainProject ["a/b.js"] [.parsed, .failures])).1
        (parseFailures (.after plainProject ["a/b.js"] [.parsed, .failures])).1 ∧
      ∃ check, plainProject.checkProject "a" [] = .ok check ∧
        (check.checks.flatMap FileCheck.issues).Perm
          (collectIssues plainProject check.scan.files check.loaded.config.sections
            (Rule.selected []) {}).1 := by
  have distinct : ["a/b.js"].Nodup := List.nodup_singleton _
  have fails : plainProject.parseFile "a/b.js" = .error .undecodable :=
    (parseFile_unreadableProject _).1
  have failuresAsked : Question.parsed ∈ [Question.failures, .parsed] := by decide
  have parsedAsked : Question.parsed ∈ [Question.parsed, .failures] := by decide
  obtain ⟨lost, _, empty, collected⟩ := accounted_after_iff plainProject distinct failuresAsked
  obtain ⟨kept, _, _, _⟩ := accounted_after_iff plainProject distinct parsedAsked
  obtain ⟨check, succeeds, _, _⟩ := exists_checkProject_unreadable
  refine ⟨distinct, failuresAsked, parsedAsked, ?_, empty rfl, kept.mpr (.inl rfl), check, succeeds,
    collected "a" [] check succeeds⟩
  rw [lost]
  simp [fails]

end StoreLint
