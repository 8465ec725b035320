import Mathlib.Data.Finset.Card
import Mathlib.Data.Multiset.Bind
import Mathlib.Logic.Relation
import StoreLint.Project.Check
import StoreLint.Proofs.Project.Path
import StoreLint.Proofs.Report.Order
import StoreLint.Proofs.Rule.Documentation
import StoreLint.Proofs.Source.Lines

/-!
# Checks in any order

The files of a project are read, parsed and linted side by side, so nothing fixes the
order of these steps or the order in which the issues come in.  A run takes one step
after the other, each with any file that is ready for it.  What a run has collected
and what its open files will still give stays the same in every step, and issues that
compare equal are equal, so all runs end with the same report.
-/

namespace StoreLint

theorem Rule.messageId_unique {rule : Rule} {first second : String}
    (isFirst : (rule.message? first).isSome) (isSecond : (rule.message? second).isSome) :
    first = second := by
  have single : ∀ {name template messageId : String},
      (([(name, template)].find? fun message => message.1 == messageId).map Prod.snd).isSome →
        name = messageId := by
    intro name template messageId isSome
    by_contra different
    simp [different] at isSome
  cases rule with
  | parseError => cases isFirst
  | _ => exact (single isFirst).symm.trans (single isSecond)

/-- Diagnostics of one file that are shown at the same place with the same text are shown alike. -/
theorem ParsedSource.issue_eq_of_order {parsed : ParsedSource} {file : String}
    {firstRule secondRule : Rule} {first second : Diagnostic} (isFirst : firstRule.Reports first)
    (isSecond : secondRule.Reports second)
    (same : (parsed.issue file first).order (parsed.issue file second) = .eq) :
    parsed.issue file first = parsed.issue file second := by
  obtain ⟨_, sameLine, sameColumn, sameRule, sameMessage⟩ := Issue.order_eq_eq_iff.mp same
  change first.rule = second.rule at sameRule
  change first.message = second.message at sameMessage
  obtain ⟨rfl, firstSeverity, firstId⟩ := isFirst.diagnostic_eq
  obtain ⟨rfl, secondSeverity, secondId⟩ := isSecond.diagnostic_eq
  have samePlace : parsed.place first.span.lo = parsed.place second.span.lo := by
    have sameSource := Place.sourceLine_eq sameLine
    exact Place.mk.injEq .. |>.mpr ⟨sameLine, sameColumn, sameSource⟩
  have sameId : first.messageId = second.messageId :=
    Rule.messageId_unique firstId (sameRule ▸ secondId)
  have sameSeverity : first.severity = second.severity := by
    rw [firstSeverity, secondSeverity, sameRule]
  simp only [ParsedSource.issue, samePlace, sameRule, sameId, sameMessage, sameSeverity]

namespace FileSystem

variable {system other : FileSystem} {sections : DocSections} {rules : List Rule} {file : String}

theorem checkFile_issues_of_error {error : SourceError}
    (fails : system.parseFile file = .error error) :
    (system.checkFile sections rules file).issues = [.parseError file error.message] := by
  rw [checkFile, fails]

theorem checkFile_issues_of_ok {parsed : ParsedSource}
    (isParsed : system.parseFile file = .ok parsed) :
    (system.checkFile sections rules file).issues =
      (parsed.lint file sections rules).diagnostics.map (parsed.issue file) := by
  rw [checkFile, isParsed]

theorem file_of_mem_checkFile {issue : Issue}
    (member : issue ∈ (system.checkFile sections rules file).issues) : issue.file = file := by
  cases isParsed : system.parseFile file with
  | error error =>
      rw [checkFile_issues_of_error isParsed] at member
      rw [List.mem_singleton.mp member]
      rfl
  | ok parsed =>
      rw [checkFile_issues_of_ok isParsed] at member
      obtain ⟨diagnostic, _, rfl⟩ := List.mem_map.mp member
      rfl

theorem checkFile_separated {first second : Issue}
    (isFirst : first ∈ (system.checkFile sections rules file).issues)
    (isSecond : second ∈ (system.checkFile sections rules file).issues)
    (same : first.order second = .eq) : first = second := by
  cases isParsed : system.parseFile file with
  | error error =>
      rw [checkFile_issues_of_error isParsed] at isFirst isSecond
      rw [List.mem_singleton.mp isFirst, List.mem_singleton.mp isSecond]
  | ok parsed =>
      rw [checkFile_issues_of_ok isParsed] at isFirst isSecond
      obtain ⟨left, isLeft, rfl⟩ := List.mem_map.mp isFirst
      obtain ⟨right, isRight, rfl⟩ := List.mem_map.mp isSecond
      obtain ⟨leftCheck, _, madeLeft⟩ := List.mem_flatMap.mp isLeft
      obtain ⟨rightCheck, _, madeRight⟩ := List.mem_flatMap.mp isRight
      exact ParsedSource.issue_eq_of_order (reports_of_mem_diagnosticsOf madeLeft)
        (reports_of_mem_diagnosticsOf madeRight) same

/-- A check of a file depends on nothing but the content of that file. -/
theorem checkFile_congr (same : other.content? file = system.content? file) :
    other.checkFile sections rules file = system.checkFile sections rules file := by
  rw [checkFile, checkFile, parseFile, parseFile, same]

/-- The issues of the files: what each of them gives when it is checked by itself. -/
def issuesOf (system : FileSystem) (sections : DocSections) (rules : List Rule)
    (files : Multiset String) : Multiset Issue :=
  files.bind fun file => ((system.checkFile sections rules file).issues : Multiset Issue)

theorem issuesOf_cons (files : Multiset String) :
    system.issuesOf sections rules (file ::ₘ files) =
      ((system.checkFile sections rules file).issues : Multiset Issue) +
        system.issuesOf sections rules files :=
  Multiset.cons_bind file files _

theorem issuesOf_separated (files : Multiset String) :
    Separated (system.issuesOf sections rules files) := by
  intro first isFirst second isSecond same
  obtain ⟨firstFile, _, inFirst⟩ := Multiset.mem_bind.mp isFirst
  obtain ⟨secondFile, _, inSecond⟩ := Multiset.mem_bind.mp isSecond
  have sameFile : firstFile = secondFile := by
    rw [← file_of_mem_checkFile inFirst, ← file_of_mem_checkFile inSecond]
    exact (Issue.order_eq_eq_iff.mp same).1
  subst sameFile
  exact checkFile_separated inFirst inSecond same

/-- Leaving a file out takes away the issues with its path and changes no others. -/
theorem issuesOf_erase {files : Finset String}
    (same : ∀ path ∈ files.erase file, other.content? path = system.content? path) :
    other.issuesOf sections rules (files.erase file).val =
      (system.issuesOf sections rules files.val).filter fun issue => issue.file ≠ file := by
  have kept : (files.erase file).val = files.val.filter (· ≠ file) := by
    rw [Finset.erase_val, files.nodup.erase_eq_filter]
  have ofFile : ∀ path ∈ files.val,
      (((system.checkFile sections rules path).issues : Multiset Issue).filter
        fun issue => issue.file ≠ file) =
        if path ≠ file then ((system.checkFile sections rules path).issues : Multiset Issue)
        else 0 := by
    intro path _
    by_cases isFile : path = file
    · rw [if_neg (not_not_intro isFile)]
      apply Multiset.filter_eq_nil.mpr
      intro issue member
      rw [file_of_mem_checkFile (Multiset.mem_coe.mp member)]
      exact not_not_intro isFile
    · rw [if_pos isFile]
      apply Multiset.filter_eq_self.mpr
      intro issue member
      rw [file_of_mem_checkFile (Multiset.mem_coe.mp member)]
      exact isFile
  calc other.issuesOf sections rules (files.erase file).val
      = system.issuesOf sections rules (files.erase file).val := by
        apply Multiset.bind_congr
        intro path member
        rw [checkFile_congr (same path member)]
    _ = files.val.bind fun path =>
          if path ≠ file then ((system.checkFile sections rules path).issues : Multiset Issue)
          else 0 := by
        rw [issuesOf, kept, Multiset.bind_filter]
    _ = (system.issuesOf sections rules files.val).filter fun issue => issue.file ≠ file := by
        rw [issuesOf, Multiset.filter_bind]
        exact (Multiset.bind_congr ofFile).symm

end FileSystem

/-- How far a check has come: the files that are still to be read, those that are parsed and still
to be linted, and the issues that have come in. -/
structure Progress where
  unread : Multiset String
  waiting : Multiset (String × ParsedSource)
  collected : List Issue

def Progress.start (files : Finset String) : Progress :=
  { unread := files.val, waiting := 0, collected := [] }

/-- One step of a check.  The issues of the step mingle with the earlier ones in any order. -/
inductive Step (system : FileSystem) (sections : DocSections) (rules : List Rule) :
    Progress → Progress → Prop
  | parse {file : String} {parsed : ParsedSource} {unread : Multiset String}
      {waiting : Multiset (String × ParsedSource)} {collected : List Issue}
      (isParsed : system.parseFile file = .ok parsed) :
      Step system sections rules ⟨file ::ₘ unread, waiting, collected⟩
        ⟨unread, (file, parsed) ::ₘ waiting, collected⟩
  | fail {file : String} {error : SourceError} {unread : Multiset String}
      {waiting : Multiset (String × ParsedSource)} {collected mingled : List Issue}
      (fails : system.parseFile file = .error error)
      (mingle : mingled.Perm (.parseError file error.message :: collected)) :
      Step system sections rules ⟨file ::ₘ unread, waiting, collected⟩ ⟨unread, waiting, mingled⟩
  | lint {file : String} {parsed : ParsedSource} {unread : Multiset String}
      {waiting : Multiset (String × ParsedSource)} {collected mingled : List Issue}
      (mingle : mingled.Perm
        ((parsed.lint file sections rules).diagnostics.map (parsed.issue file) ++ collected)) :
      Step system sections rules ⟨unread, (file, parsed) ::ₘ waiting, collected⟩
        ⟨unread, waiting, mingled⟩

/-- A check that started with the files and got through all of them. -/
structure CompleteRun (system : FileSystem) (sections : DocSections) (rules : List Rule)
    (files : Finset String) (last : Progress) : Prop where
  steps : Relation.ReflTransGen (Step system sections rules) (.start files) last
  allRead : last.unread = 0
  allLinted : last.waiting = 0

section Runs

variable {system : FileSystem} {sections : DocSections} {rules : List Rule}

/-- The issues that a check has collected and those that its open files will still give. -/
def Progress.prospect (system : FileSystem) (sections : DocSections) (rules : List Rule)
    (progress : Progress) : Multiset Issue :=
  (progress.collected : Multiset Issue) + system.issuesOf sections rules progress.unread +
    progress.waiting.bind fun opened =>
      ((opened.2.lint opened.1 sections rules).diagnostics.map (opened.2.issue opened.1) :
        Multiset Issue)

theorem Step.prospect_eq {first second : Progress}
    (step : Step system sections rules first second) :
    second.prospect system sections rules = first.prospect system sections rules := by
  cases step with
  | parse isParsed =>
      simp only [Progress.prospect, FileSystem.issuesOf_cons, Multiset.cons_bind,
        FileSystem.checkFile_issues_of_ok isParsed]
      ac_rfl
  | fail fails mingle =>
      simp only [Progress.prospect, FileSystem.issuesOf_cons,
        FileSystem.checkFile_issues_of_error fails, Multiset.coe_eq_coe.mpr mingle]
      rw [← Multiset.cons_coe, ← Multiset.singleton_add, Multiset.coe_singleton]
      ac_rfl
  | lint mingle =>
      simp only [Progress.prospect, Multiset.cons_bind, Multiset.coe_eq_coe.mpr mingle]
      rw [← Multiset.coe_add]
      ac_rfl

theorem prospect_eq_of_steps {first last : Progress}
    (steps : Relation.ReflTransGen (Step system sections rules) first last) :
    last.prospect system sections rules = first.prospect system sections rules := by
  induction steps with
  | refl => rfl
  | tail _ step induction => exact step.prospect_eq.trans induction

theorem CompleteRun.collected_eq {files : Finset String} {last : Progress}
    (run : CompleteRun system sections rules files last) :
    (last.collected : Multiset Issue) = system.issuesOf sections rules files.val := by
  have prospect := prospect_eq_of_steps run.steps
  simpa [Progress.prospect, Progress.start, FileSystem.issuesOf, run.allRead, run.allLinted]
    using prospect

theorem exists_steps_of_read (waiting : Multiset (String × ParsedSource)) (collected : List Issue) :
    ∃ issues, Relation.ReflTransGen (Step system sections rules)
      ⟨0, waiting, collected⟩ ⟨0, 0, issues⟩ := by
  induction waiting using Multiset.induction generalizing collected with
  | empty => exact ⟨collected, .refl⟩
  | cons opened waiting induction =>
      obtain ⟨issues, rest⟩ := induction _
      exact ⟨issues, .head (.lint (.refl _)) rest⟩

theorem exists_steps (unread : Multiset String) (waiting : Multiset (String × ParsedSource))
    (collected : List Issue) :
    ∃ issues, Relation.ReflTransGen (Step system sections rules)
      ⟨unread, waiting, collected⟩ ⟨0, 0, issues⟩ := by
  induction unread using Multiset.induction generalizing waiting collected with
  | empty => exact exists_steps_of_read waiting collected
  | cons file unread induction =>
      cases isParsed : system.parseFile file with
      | ok parsed =>
          obtain ⟨issues, rest⟩ := induction _ _
          exact ⟨issues, .head (.parse isParsed) rest⟩
      | error error =>
          obtain ⟨issues, rest⟩ := induction _ _
          exact ⟨issues, .head (.fail isParsed (.refl _)) rest⟩

theorem exists_completeRun (files : Finset String) :
    ∃ last, CompleteRun system sections rules files last := by
  obtain ⟨issues, steps⟩ := exists_steps files.val 0 []
  exact ⟨_, steps, rfl, rfl⟩

end Runs

theorem CheckResult.finish_eq_of_perm {first second : List Issue} {count : Nat}
    (separated : Separated (first : Multiset Issue)) (perm : first.Perm second) :
    CheckResult.finish first count = CheckResult.finish second count := by
  have sameIssues : Issue.sorted first = Issue.sorted second :=
    IsReport.unique separated (.sorted rfl) (.sorted (Multiset.coe_eq_coe.mpr perm.symm))
  simp only [CheckResult.finish, sameIssues, Issue.count, perm.countP_eq]

theorem nodup_eraseDups (texts : List String) : texts.eraseDups.Nodup := by
  cases texts with
  | nil => exact List.nodup_nil
  | cons text texts =>
      rw [List.eraseDups_cons, List.nodup_cons]
      constructor
      · simp [List.mem_eraseDups]
      · exact nodup_eraseDups _
termination_by texts.length
decreasing_by
  rw [List.length_cons]
  exact Nat.lt_succ_of_le (List.length_filter_le _ _)

theorem nodup_ascending (texts : List String) : (ascending texts).Nodup := nodup_eraseDups _

/-- A check that goes through its files one after the other finds the issues of these files. -/
theorem FileSystem.collected_checkProject {system : FileSystem} {base : String}
    {selected : List Rule} {check : ProjectCheck}
    (succeeds : system.checkProject base selected = .ok check) :
    check.scan.files.Nodup ∧
      (check.checks.flatMap FileCheck.issues : Multiset Issue) =
        system.issuesOf check.loaded.config.sections (Rule.selected selected) check.scan.files := by
  obtain ⟨loaded, _, isCheck⟩ := bind_eq_ok_iff.mp succeeds
  cases isCheck
  constructor
  · exact nodup_ascending _
  · simp only [FileSystem.issuesOf, List.flatMap_map, Multiset.coe_bind]

/-- A check gives the same result whatever the order of its steps: the issues that its files have
one by one, in ascending order, where issues that compare equal are equal in every field.  Leaving
a file out takes away the issues with its path and nothing else. -/
theorem check_independent_of_order (system : FileSystem) (sections : DocSections)
    (rules : List Rule) (files : Finset String) :
    ∃ result : CheckResult,
      IsReport (system.issuesOf sections rules files.val) result.issues ∧
      (∀ issues, IsReport (system.issuesOf sections rules files.val) issues →
        issues = result.issues) ∧
      (∃ last, CompleteRun system sections rules files last) ∧
      (∀ last, CompleteRun system sections rules files last →
        CheckResult.finish last.collected files.card = result) ∧
      (∀ base selected check, system.checkProject base selected = .ok check →
        check.loaded.config.sections = sections → Rule.selected selected = rules →
          check.scan.files.toFinset = files → check.result = result) ∧
      (∀ first ∈ result.issues, ∀ second ∈ result.issues,
        first.order second = .eq → first = second) ∧
      ∀ (file : String) (other : FileSystem),
        (∀ path ∈ files.erase file, other.content? path = system.content? path) →
          ∀ last, CompleteRun other sections rules (files.erase file) last →
            (CheckResult.finish last.collected (files.erase file).card).issues =
              result.issues.filter fun issue => issue.file ≠ file := by
  obtain ⟨whole, wholeRun⟩ := @exists_completeRun system sections rules files
  have separated : Separated (system.issuesOf sections rules files.val) :=
    FileSystem.issuesOf_separated files.val
  have report : IsReport (system.issuesOf sections rules files.val)
      (CheckResult.finish whole.collected files.card).issues := .sorted wholeRun.collected_eq
  have sameResult : ∀ issues : List Issue,
      (issues : Multiset Issue) = system.issuesOf sections rules files.val →
        CheckResult.finish issues files.card = CheckResult.finish whole.collected files.card := by
    intro issues isFound
    apply CheckResult.finish_eq_of_perm (isFound ▸ separated)
    exact Multiset.coe_eq_coe.mp (isFound.trans wholeRun.collected_eq.symm)
  refine ⟨CheckResult.finish whole.collected files.card, report, ?_, ⟨whole, wholeRun⟩, ?_, ?_,
    ?_, ?_⟩
  · intro issues isReport
    exact isReport.unique separated report
  · intro last run
    exact sameResult last.collected run.collected_eq
  · intro base selected check succeeds isSections isRules isFiles
    obtain ⟨nodup, collected⟩ := FileSystem.collected_checkProject succeeds
    have isCount : check.scan.files.length = files.card := by
      rw [← isFiles, List.toFinset_card_of_nodup nodup]
    have isUnion : (check.scan.files : Multiset String) = files.val := by
      rw [← isFiles, List.toFinset_val, nodup.dedup]
    rw [ProjectCheck.result, isCount]
    apply sameResult
    rw [collected, isSections, isRules, isUnion]
  · intro first isFirst second isSecond same
    rw [← Multiset.mem_coe] at isFirst isSecond
    rw [report.holds] at isFirst isSecond
    exact separated first isFirst second isSecond same
  · intro file other same last run
    have smaller : IsReport ((system.issuesOf sections rules files.val).filter
        fun issue => issue.file ≠ file) (Issue.sorted last.collected) := by
      apply IsReport.sorted
      rw [run.collected_eq, FileSystem.issuesOf_erase same]
    have remaining := report.filter fun issue => issue.file ≠ file
    simp only [decide_eq_true_eq] at remaining
    exact smaller.unique (separated.filter _) remaining

def unreadable (file : String) : Issue := .parseError file SourceError.undecodable.message

/-- A directory with sources that cannot be read. -/
def unreadableSources : FileTree :=
  .directory [("b.js", .file .binary), ("c.js", .file .binary)]

/-- A project with sources that cannot be read, and the text of a configuration. -/
def unreadableProject (text : String) : FileSystem :=
  { root := .directory [("a", unreadableSources), (".vuexlintrc.json", .file (.text text))]
    current := [] }

def configOfSections (sections : DocSections) : Config :=
  { includes := [], ignores := [], ignoreTestFiles := false, sections }

section Unreadable

variable (text : String)

theorem lookup_unreadableProject :
    (unreadableProject text).lookup "a" = .ok unreadableSources ∧
      (unreadableProject text).lookup "a/b.js" = .ok (.file .binary) ∧
      (unreadableProject text).lookup "a/c.js" = .ok (.file .binary) ∧
      (unreadableProject text).lookup ".vuexlintrc.json" = .ok (.file (.text text)) ∧
      (unreadableProject text).lookup "a/.vuexlintrc.json" = .error .notFound ∧
      (unreadableProject text).lookup "a/.git" = .error .notFound := by
  refine ⟨?_, ?_, ?_, ?_, ?_, ?_⟩
  all_goals
    rw [FileSystem.lookup_eq_follow _ (by decide +kernel)]
    rfl

theorem loadConfig_unreadableProject {config : Config} (isConfig : Config.parse text = .ok config)
    (isValid : config.invalid? = none) :
    (unreadableProject text).loadConfig "a" = .ok ⟨config, true⟩ := by
  obtain ⟨_, _, _, isFile, isAbsent, isUnmarked⟩ := lookup_unreadableProject text
  have inner : Path.join "a" configFileName = "a/.vuexlintrc.json" := by decide +kernel
  have mark : Path.join "a" repositoryMark = "a/.git" := by decide +kernel
  have outer : Path.join "" configFileName = ".vuexlintrc.json" := by decide +kernel
  have parent : Path.parent? "a" = some "" := by
    simp only [Path.parent?, Path.components, Path.segments_eq_map]
    decide +kernel
  have isFound : (unreadableProject text).findConfig "a" = some ".vuexlintrc.json" := by
    simp [FileSystem.findConfig, searchConfig, searchConfigWithin, FileSystem.holds, inner, mark,
      outer, isAbsent, isUnmarked, isFile, parent, Except.isOk, Except.toBool]
  have isRead : (unreadableProject text).readConfig ".vuexlintrc.json" = .ok config := by
    simp [FileSystem.readConfig, FileSystem.content?, isFile, isConfig, isValid]
  rw [FileSystem.loadConfig, isFound]
  simp [isRead, bind, Except.bind, pure, Except.pure]

theorem isSourcePath_unreadableSources :
    isSourcePath "a/b.js" = true ∧ isSourcePath "a/c.js" = true := by
  have areNames : Path.fileName? "a/b.js" = some "b.js" ∧
      Path.fileName? "a/c.js" = some "c.js" := by
    simp only [Path.fileName?, Path.components, Path.segments_eq_map]
    decide +kernel
  have arePieces : "b.js".splitOn "." = ["b", "js"] ∧ "c.js".splitOn "." = ["c", "js"] :=
    ⟨(splitOn_eq_map "b.js" '.').trans (by decide +kernel),
      (splitOn_eq_map "c.js" '.').trans (by decide +kernel)⟩
  simp [isSourcePath, Path.extension?, areNames, arePieces, sourceExtensions]

theorem files_unreadableProject (sections : DocSections) :
    (((configOfSections sections).scanRequest "a").scan (unreadableProject text)).files =
      ["a/b.js", "a/c.js"] := by
  have areJoined : Path.join "a" "b.js" = "a/b.js" ∧ Path.join "a" "c.js" = "a/c.js" := by
    decide +kernel
  have walked : (unreadableProject text).walkFrom "a" =
      .ok [("a", unreadableSources), ("a/b.js", .file .binary), ("a/c.js", .file .binary)] := by
    simp [FileSystem.walkFrom, lookup_unreadableProject text, unreadableSources, FileTree.walk,
      FileTree.walkEntries, areJoined, bind, Except.bind, pure, Except.pure]
  simp [ScanRequest.scan, Config.scanRequest, configOfSections, ScanRequest.starts, walkedFiles,
    walked, unreadableSources, isSourceFile, FileTree.isDirectory, isSourcePath_unreadableSources,
    IgnoreSet.ofRequest, IgnoreSet.ignores, IgnoreSet.patternsOf]
  have isSorted : ["a/b.js", "a/c.js"].Pairwise fun left right => decide (left ≤ right) = true := by
    decide
  rw [ascending, List.mergeSort_of_pairwise isSorted]
  decide

theorem parseFile_unreadableProject :
    (unreadableProject text).parseFile "a/b.js" = .error .undecodable ∧
      (unreadableProject text).parseFile "a/c.js" = .error .undecodable := by
  obtain ⟨_, isFirst, isSecond, _⟩ := lookup_unreadableProject text
  simp [FileSystem.parseFile, FileSystem.content?, isFirst, isSecond]

end Unreadable

/-- The project with sections as they are by default. -/
def plainProject : FileSystem := unreadableProject "[[],[],false]"

theorem exists_checkProject_unreadable :
    ∃ check, plainProject.checkProject "a" [] = .ok check ∧
      check.loaded.config.sections = {} ∧ check.scan.files = ["a/b.js", "a/c.js"] := by
  have loads := @loadConfig_unreadableProject "[[],[],false]" (configOfSections {})
    (by decide +kernel) (by decide)
  refine ⟨_, bind_eq_ok_iff.mpr ⟨_, loads, rfl⟩, rfl, ?_⟩
  exact files_unreadableProject _ _

/-- A check that met the second of two files first, though neither can be read, and the check of
their project. -/
theorem check_independent_of_order_unreadable :
    (∃ last, CompleteRun plainProject {} Rule.checks {"a/b.js", "a/c.js"} last ∧
      last.collected = [unreadable "a/c.js", unreadable "a/b.js"] ∧
      (CheckResult.finish last.collected 2).issues =
        [unreadable "a/b.js", unreadable "a/c.js"]) ∧
    (∃ last,
      CompleteRun plainProject {} Rule.checks (Finset.erase {"a/b.js", "a/c.js"} "a/b.js") last ∧
      (CheckResult.finish last.collected 1).issues = [unreadable "a/c.js"]) ∧
    ∃ check, plainProject.checkProject "a" [] = .ok check ∧
      check.result.issues = [unreadable "a/b.js", unreadable "a/c.js"] := by
  obtain ⟨result, _, unique, _, sameRun, sameProject, _, leftOut⟩ :=
    check_independent_of_order plainProject {} Rule.checks {"a/b.js", "a/c.js"}
  obtain ⟨isFirst, isSecond⟩ := parseFile_unreadableProject "[[],[],false]"
  have run : CompleteRun plainProject {} Rule.checks {"a/b.js", "a/c.js"}
      ⟨0, 0, [unreadable "a/c.js", unreadable "a/b.js"]⟩ := by
    have first : Step plainProject {} Rule.checks ⟨"a/b.js" ::ₘ {"a/c.js"}, 0, []⟩
        ⟨{"a/c.js"}, 0, [unreadable "a/b.js"]⟩ := .fail isFirst (.refl _)
    have second : Step plainProject {} Rule.checks ⟨{"a/c.js"}, 0, [unreadable "a/b.js"]⟩
        ⟨0, 0, [unreadable "a/c.js", unreadable "a/b.js"]⟩ := .fail isSecond (.refl _)
    exact ⟨.head first (.single second), rfl, rfl⟩
  have isResult : [unreadable "a/b.js", unreadable "a/c.js"] = result.issues := by
    apply unique
    constructor
    · rw [← run.collected_eq]
      exact Multiset.coe_eq_coe.mpr (List.Perm.swap _ _ _)
    · simp [Issue.Precedes, unreadable]
      decide
  obtain ⟨smaller, smallerRun⟩ := @exists_completeRun plainProject {} Rule.checks
    (Finset.erase {"a/b.js", "a/c.js"} "a/b.js")
  obtain ⟨check, succeeds, isConfig, areFiles⟩ := exists_checkProject_unreadable
  refine ⟨⟨_, run, rfl, ?_⟩, ⟨smaller, smallerRun, ?_⟩, ⟨check, succeeds, ?_⟩⟩
  · rw [isResult, ← sameRun _ run]
    rfl
  · have isSmaller := leftOut "a/b.js" plainProject (fun _ _ => rfl) smaller smallerRun
    rw [← isResult] at isSmaller
    exact isSmaller
  · rw [sameProject "a" [] check succeeds isConfig rfl (by rw [areFiles]; rfl), isResult]

end StoreLint
