import StoreLint.Command.Run
import StoreLint.Proofs.Project.Outline
import StoreLint.Proofs.Project.Path
import StoreLint.Proofs.Project.Runs

/-!
# The status of a check

A check counts its issues by severity, and ends with the status one just if it has counted
an error.  Errors are the files that cannot be read or parsed and the diagnostics about
the root store; all issues of the documentation rule are warnings.

So nothing that concerns documentation alone has a say in the status.  Two projects with
the same sources whose configurations differ in the sections that need documentation end
with the same status, and what could not be checked is reported without a change of it.
-/

namespace StoreLint

/-- A file that makes a check fail. -/
inductive FileSystem.Fails (system : FileSystem) (sections : DocSections) (rules : List Rule)
    (file : String) : Prop where
  | unparsed {error : SourceError} (fails : system.parseFile file = .error error)
  | rootStore {parsed : ParsedSource} {diagnostic : Diagnostic}
      (isParsed : system.parseFile file = .ok parsed)
      (isFound : diagnostic ∈ (parsed.lint file sections rules).diagnostics)
      (isRootRule : diagnostic.rule = .rootAssets ∨ diagnostic.rule = .rootCalls)

section Severities

variable {parsed : ParsedSource} {file : String} {sections others : DocSections}
  {rules : List Rule} {diagnostic : Diagnostic}

theorem severity_eq_error_iff
    (isFound : diagnostic ∈ (parsed.lint file sections rules).diagnostics) :
    diagnostic.severity = .error ↔
      diagnostic.rule = .rootAssets ∨ diagnostic.rule = .rootCalls := by
  obtain ⟨⟨target, rule⟩, _, finding⟩ := exists_finding_of_lint isFound
  obtain ⟨isRule, isSeverity, _⟩ := finding.reports.diagnostic_eq
  rw [isSeverity, isRule]
  cases finding with
  | undocumented => simp [Rule.severity]
  | inGetter => simp [Rule.severity]
  | inAction => simp [Rule.severity]
  | atCall => simp [Rule.severity]

/-- Only the documentation rule looks at the sections that need documentation. -/
theorem diagnosticsOf_sections {check : Target × Rule} (notDoc : check.2 ≠ .requireDoc) :
    diagnosticsOf (parsed.checkContext sections) check =
      diagnosticsOf (parsed.checkContext others) check := by
  obtain ⟨target, rule⟩ := check
  cases rule with
  | requireDoc => exact absurd rfl notDoc
  | rootAssets =>
      cases target with
      | entry placed => rfl
      | call span callee args => rfl
  | rootCalls =>
      cases target with
      | entry placed => rfl
      | call span callee args => rfl
  | parseError => rfl

theorem mem_lint_of_sections
    (isRootRule : diagnostic.rule = .rootAssets ∨ diagnostic.rule = .rootCalls)
    (isFound : diagnostic ∈ (parsed.lint file sections rules).diagnostics) :
    diagnostic ∈ (parsed.lint file others rules).diagnostics := by
  obtain ⟨check, isCheck, isOwn⟩ := List.mem_flatMap.mp isFound
  have notDoc : check.2 ≠ .requireDoc := by
    rw [← rule_of_mem_diagnosticsOf isOwn]
    rcases isRootRule with isRule | isRule <;> simp [isRule]
  rw [diagnosticsOf_sections notDoc] at isOwn
  exact List.mem_flatMap.mpr ⟨check, isCheck, isOwn⟩

end Severities

namespace FileSystem

variable {system other : FileSystem} {sections others : DocSections} {rules : List Rule}
  {file : String}

theorem Fails.transfer (same : system.content? file = other.content? file)
    (fails : system.Fails sections rules file) : other.Fails others rules file := by
  have sameOutcome : system.parseFile file = other.parseFile file := by
    rw [parseFile, parseFile, same]
  cases fails with
  | unparsed fails => exact .unparsed (sameOutcome ▸ fails)
  | rootStore isParsed isFound isRootRule =>
      exact .rootStore (sameOutcome ▸ isParsed) (mem_lint_of_sections isRootRule isFound) isRootRule

/-- The errors of a file are what makes a check fail. -/
theorem exists_error_iff_fails :
    (∃ issue ∈ (system.checkFile sections rules file).issues, issue.severity = .error) ↔
      system.Fails sections rules file := by
  cases outcome : system.parseFile file with
  | error error =>
      rw [checkFile_issues_of_error outcome]
      constructor
      · intro _
        exact .unparsed outcome
      · intro _
        exact ⟨_, List.mem_singleton.mpr rfl, rfl⟩
  | ok parsed =>
      rw [checkFile_issues_of_ok outcome]
      constructor
      · rintro ⟨issue, isIssue, isError⟩
        obtain ⟨diagnostic, isFound, rfl⟩ := List.mem_map.mp isIssue
        exact .rootStore outcome isFound ((severity_eq_error_iff isFound).mp isError)
      · intro fails
        cases fails with
        | unparsed fails => cases fails.symm.trans outcome
        | rootStore isParsed isFound isRootRule =>
            cases isParsed.symm.trans outcome
            refine ⟨_, List.mem_map_of_mem isFound, ?_⟩
            exact (severity_eq_error_iff isFound).mpr isRootRule

end FileSystem

namespace Issue

theorem count_error_add_count_warning (issues : List Issue) :
    count .error issues + count .warning issues = issues.length := by
  induction issues with
  | nil => rfl
  | cons issue issues induction =>
      unfold count at induction ⊢
      rw [List.countP_cons, List.countP_cons, List.length_cons, ← induction]
      cases issue.severity with
      | error => simp; omega
      | warning => simp; omega

theorem count_sorted (severity : Severity) (issues : List Issue) :
    count severity (sorted issues) = count severity issues :=
  (sorted_perm issues).countP_eq _

theorem count_error_pos_iff {issues : List Issue} :
    0 < count .error issues ↔ ∃ issue ∈ issues, issue.severity = .error := by
  simp [count, List.countP_pos_iff]

end Issue

/-- The line that tells how many errors and warnings there are. -/
def Report.summaryLine (color : Bool) (errors warnings : Nat) : String :=
  let mark := (Style.colored .red).apply color failureMark
  let errorWord := (Style.colored .red).apply color (plural errors "error")
  let warningWord := (Style.colored .yellow).apply color (plural warnings "warning")
  s!"\n{mark} {errors + warnings} problems ({errors} {errorWord}, {warnings} {warningWord})\n"

theorem Report.summary_eq {issues : List Issue} (isNonempty : issues ≠ []) (color : Bool) :
    summary color issues =
      summaryLine color (Issue.count .error issues) (Issue.count .warning issues) := by
  have isCounted : ¬(Issue.count .error issues + Issue.count .warning issues == 0) = true := by
    rw [Issue.count_error_add_count_warning]
    simpa using isNonempty
  exact if_neg isCounted

/-- A report ends with the numbers of its errors and warnings. -/
theorem Report.text_eq {issues : List Issue} (isNonempty : issues ≠ []) (color : Bool) :
    ∃ body, Report.text color issues =
      body ++ summaryLine color (Issue.count .error issues) (Issue.count .warning issues) := by
  have sortedNonempty : Issue.sorted issues ≠ [] := by
    intro isEmpty
    exact isNonempty (List.nil_perm.mp (isEmpty ▸ Issue.sorted_perm issues))
  rw [Report.text, if_neg (by simpa using isNonempty)]
  dsimp only
  rw [Report.summary_eq sortedNonempty, Issue.count_sorted, Issue.count_sorted]
  exact ⟨_, rfl⟩

namespace ProjectCheck

/-- The check with other defects in place of those that it found. -/
def withDefects (check : ProjectCheck) (defects : FileCheck → List Defect) : ProjectCheck :=
  { check with checks := check.checks.map fun file => { file with defects := defects file } }

theorem count_error_issues (check : ProjectCheck) :
    Issue.count .error check.result.issues = check.result.errors :=
  Issue.count_sorted .error _

theorem count_warning_issues (check : ProjectCheck) :
    Issue.count .warning check.result.issues = check.result.warnings :=
  Issue.count_sorted .warning _

theorem outputText_eq {check : ProjectCheck} (isNonempty : check.result.issues ≠ [])
    (color : Bool) :
    ∃ body, check.outputText color =
      body ++ Report.summaryLine color check.result.errors check.result.warnings := by
  rw [outputText, if_neg (by simpa using isNonempty), ← count_error_issues, ← count_warning_issues]
  exact Report.text_eq isNonempty color

theorem status_withDefects (check : ProjectCheck) (defects : FileCheck → List Defect) :
    (check.withDefects defects).status = check.status := by
  rw [status, status, result, result, withDefects, List.flatMap_map]

end ProjectCheck

section Checks

variable {system : FileSystem} {base : String} {loaded : LoadedConfig}

/-- The check of a project whose configuration is known. -/
def FileSystem.checkWith (system : FileSystem) (loaded : LoadedConfig) (base : String)
    (rules : List Rule) : ProjectCheck :=
  let scan := (loaded.config.scanRequest base).scan system
  { loaded
    scan
    checks := scan.files.map (system.checkFile loaded.config.sections (Rule.selected rules)) }

theorem FileSystem.checkProject_of_loadConfig (loads : system.loadConfig base = .ok loaded)
    (rules : List Rule) :
    system.checkProject base rules = .ok (system.checkWith loaded base rules) := by
  rw [checkProject, loads]
  rfl

/-- A file of the project makes the check fail. -/
def FileSystem.SomeFails (system : FileSystem) (loaded : LoadedConfig) (base : String)
    (rules : List Rule) : Prop :=
  ∃ file ∈ ((loaded.config.scanRequest base).scan system).files,
    system.Fails loaded.config.sections (Rule.selected rules) file

theorem FileSystem.exists_error_checkWith_iff {rules : List Rule} :
    (∃ issue ∈ (system.checkWith loaded base rules).checks.flatMap FileCheck.issues,
        issue.severity = .error) ↔ system.SomeFails loaded base rules := by
  simp only [FileSystem.checkWith, FileSystem.SomeFails, List.flatMap_map, List.mem_flatMap,
    ← exists_error_iff_fails]
  constructor
  · rintro ⟨issue, ⟨file, isFile, isOwn⟩, isError⟩
    exact ⟨file, isFile, issue, isOwn, isError⟩
  · rintro ⟨file, isFile, issue, isOwn, isError⟩
    exact ⟨issue, ⟨file, isFile, isOwn⟩, isError⟩

theorem status_checkWith_of_someFails {rules : List Rule}
    (fails : system.SomeFails loaded base rules) :
    (system.checkWith loaded base rules).status = 1 := by
  apply if_pos
  exact Issue.count_error_pos_iff.mpr (FileSystem.exists_error_checkWith_iff.mpr fails)

theorem status_checkWith_of_not_someFails {rules : List Rule}
    (never : ¬system.SomeFails loaded base rules) :
    (system.checkWith loaded base rules).status = 0 := by
  apply if_neg
  rw [← FileSystem.exists_error_checkWith_iff, ← Issue.count_error_pos_iff] at never
  exact never

theorem runCheck_of_loadConfig {options : CheckOptions}
    (loads : system.loadConfig (options.sourceRoot.getD defaultRoot) = .ok loaded) (color : Bool) :
    let check := system.checkWith loaded (options.sourceRoot.getD defaultRoot) options.rules
    (runCheck system color options).status = check.status ∧
      (runCheck system color options).output = check.outputText color := by
  rw [runCheck, FileSystem.checkProject_of_loadConfig loads]
  exact ⟨rfl, rfl⟩

/-- The configurations agree in everything but the sections that need documentation. -/
def Config.AgreeBesideSections (first second : Config) : Prop :=
  { first with sections := second.sections } = second

/-- A project with the same files fails or not whatever the sections that need documentation. -/
theorem someFails_iff_of_agree {other : FileSystem} {otherLoaded : LoadedConfig} {rules : List Rule}
    (sameOutline : other.outline = system.outline)
    (sameContent : ∀ file ∈ ((loaded.config.scanRequest base).scan system).files,
      other.content? file = system.content? file)
    (agree : loaded.config.AgreeBesideSections otherLoaded.config) :
    other.SomeFails otherLoaded base rules ↔ system.SomeFails loaded base rules := by
  have sameRequest : otherLoaded.config.scanRequest base = loaded.config.scanRequest base := by
    rw [← agree]
    rfl
  unfold FileSystem.SomeFails
  rw [sameRequest, ← ScanRequest.scan_outline, sameOutline, ScanRequest.scan_outline]
  constructor
  · rintro ⟨file, isFile, fails⟩
    exact ⟨file, isFile, fails.transfer (sameContent file isFile)⟩
  · rintro ⟨file, isFile, fails⟩
    exact ⟨file, isFile, fails.transfer (sameContent file isFile).symm⟩

end Checks

/-- A check ends with one if a file cannot be read or parsed or has a diagnostic about the root
store, and with zero otherwise.  Its issues are counted once as errors and once as warnings, and the
report tells the same numbers.  Defects do not change the status, and neither do the sections that
need documentation. -/
theorem status_of_runCheck {system : FileSystem} {options : CheckOptions} {loaded : LoadedConfig}
    (loads : system.loadConfig (options.sourceRoot.getD defaultRoot) = .ok loaded) (color : Bool) :
    ∃ check, system.checkProject (options.sourceRoot.getD defaultRoot) options.rules = .ok check ∧
      ((∃ file ∈ check.scan.files,
          system.Fails loaded.config.sections (Rule.selected options.rules) file) →
        (runCheck system color options).status = 1) ∧
      ((¬∃ file ∈ check.scan.files,
          system.Fails loaded.config.sections (Rule.selected options.rules) file) →
        (runCheck system color options).status = 0) ∧
      check.result.errors + check.result.warnings = check.result.issues.length ∧
      Issue.count .error check.result.issues = check.result.errors ∧
      Issue.count .warning check.result.issues = check.result.warnings ∧
      (check.result.issues ≠ [] → ∃ body, (runCheck system color options).output =
        body ++ Report.summaryLine color check.result.errors check.result.warnings) ∧
      (∀ defects, (check.withDefects defects).status = (runCheck system color options).status) ∧
      ∀ other otherLoaded, other.outline = system.outline →
        (∀ file ∈ check.scan.files, other.content? file = system.content? file) →
          other.loadConfig (options.sourceRoot.getD defaultRoot) = .ok otherLoaded →
            loaded.config.AgreeBesideSections otherLoaded.config →
              (runCheck other color options).status = (runCheck system color options).status := by
  obtain ⟨isStatus, isOutput⟩ := runCheck_of_loadConfig loads color
  rw [isStatus, isOutput]
  refine ⟨_, FileSystem.checkProject_of_loadConfig loads options.rules, ?_, ?_, ?_, ?_, ?_, ?_, ?_,
    ?_⟩
  · exact status_checkWith_of_someFails
  · exact status_checkWith_of_not_someFails
  · rw [ProjectCheck.result, CheckResult.finish, (Issue.sorted_perm _).length_eq]
    exact Issue.count_error_add_count_warning _
  · exact ProjectCheck.count_error_issues _
  · exact ProjectCheck.count_warning_issues _
  · intro isNonempty
    exact ProjectCheck.outputText_eq isNonempty color
  · intro defects
    exact ProjectCheck.status_withDefects _ defects
  · intro other otherLoaded sameOutline sameContent otherLoads agree
    -- One side of the condition decides both runs.
    have sameFails := @someFails_iff_of_agree _ _ _ _ _ options.rules sameOutline sameContent agree
    rw [(runCheck_of_loadConfig otherLoads color).1]
    by_cases fails : system.SomeFails loaded (options.sourceRoot.getD defaultRoot) options.rules
    · rw [status_checkWith_of_someFails fails,
        status_checkWith_of_someFails (sameFails.mpr fails)]
    · rw [status_checkWith_of_not_someFails fails,
        status_checkWith_of_not_someFails (mt sameFails.mp fails)]

/-- The project with props that need no documentation, and with props that need it: both checks end
with one. -/
theorem status_of_runCheck_unreadableProject :
    (unreadableProject "[[],[],false,[[false]]]").loadConfig "a" =
        .ok ⟨configOfSections { props := false }, true⟩ ∧
      (unreadableProject "[[],[],false,[[true]]]").loadConfig "a" =
        .ok ⟨configOfSections { props := true }, true⟩ ∧
      (runCheck (unreadableProject "[[],[],false,[[false]]]") false
        { sourceRoot := some "a" }).status = 1 ∧
      (runCheck (unreadableProject "[[],[],false,[[true]]]") false
          { sourceRoot := some "a" }).status =
        (runCheck (unreadableProject "[[],[],false,[[false]]]") false
          { sourceRoot := some "a" }).status := by
  have loads := @loadConfig_unreadableProject "[[],[],false,[[false]]]"
    (configOfSections { props := false }) (by decide +kernel) (by decide)
  have otherLoads := @loadConfig_unreadableProject "[[],[],false,[[true]]]"
    (configOfSections { props := true }) (by decide +kernel) (by decide)
  obtain ⟨check, isCheck, failing, _, _, _, _, _, _, alike⟩ :=
    @status_of_runCheck _ { sourceRoot := some "a" } _ loads false
  have areFiles : check.scan.files = ["a/b.js", "a/c.js"] := by
    cases (FileSystem.checkProject_of_loadConfig loads []).symm.trans isCheck
    exact files_unreadableProject _ _
  have isScanned : "a/b.js" ∈ check.scan.files := by
    rw [areFiles]
    exact List.mem_cons_self
  have sameContent : ∀ file ∈ check.scan.files,
      (unreadableProject "[[],[],false,[[true]]]").content? file =
        (unreadableProject "[[],[],false,[[false]]]").content? file := by
    rw [areFiles]
    simp [FileSystem.content?, lookup_unreadableProject]
  refine ⟨loads, otherLoads, ?_, alike _ _ rfl sameContent otherLoads rfl⟩
  exact failing ⟨"a/b.js", isScanned, .unparsed (parseFile_unreadableProject _).1⟩

end StoreLint
