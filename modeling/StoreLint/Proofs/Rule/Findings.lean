import StoreLint.Rule.Lint

/-!
# What rules find

The checks of the rules, read backwards.  `Finding` has one constructor for each way in
which a rule comes to a diagnostic, with everything that led to it: the entry that a
section was followed to, the function of the entry, the use in the function.  What is
to be known of all diagnostics is then a case analysis over findings, and no later
proof opens a check.
-/

namespace StoreLint

theorem bind_eq_ok_iff {α β ε : Type} {first : Except ε α} {next : α → Except ε β} {result : β} :
    (first >>= next) = .ok result ↔ ∃ value, first = .ok value ∧ next value = .ok result := by
  cases first with
  | error error => simp [bind, Except.bind]
  | ok value => simp [bind, Except.bind]

theorem mem_iff_of_mapM_eq_ok {α β ε : Type} {check : α → Except ε β} {items : List α}
    {results : List β} (succeeds : items.mapM check = .ok results) {result : β} :
    result ∈ results ↔ ∃ item ∈ items, check item = .ok result := by
  induction items generalizing results with
  | nil =>
      cases succeeds
      simp
  | cons item items induction =>
      rw [List.mapM_cons] at succeeds
      obtain ⟨value, first, later⟩ := bind_eq_ok_iff.mp succeeds
      obtain ⟨values, rest, isResults⟩ := bind_eq_ok_iff.mp later
      cases isResults
      simp only [List.mem_cons, induction rest, exists_eq_or_imp, first, Except.ok.injEq]
      exact or_congr_left eq_comm

/-- The ways in which a rule comes to a diagnostic at a target. -/
inductive Finding (context : CheckContext) : Rule → Target → Diagnostic → Prop where
  | undocumented {placed : PlacedEntry} {entries : List Node} {entry : Node} {key : Span}
      {diagnostic : Diagnostic} (applies : context.sections.appliesTo placed = true)
      (followed : context.tree.childEntries placed.entry = .ok entries) (isEntry : entry ∈ entries)
      (bare : hasLeadingDoc (context.comments.before entry.docAnchor) = false)
      (isKey : entry.entryKeySpan? = some key)
      (reported : Rule.requireDoc.report key "missingJsdoc" [] = .ok diagnostic) :
      Finding context .requireDoc (.entry placed) diagnostic
  | inGetter {placed : PlacedEntry} {entries : List Node} {entry function : Node}
      {site : AssetSite} {diagnostic : Diagnostic} (isSection : placed.isGetters = true)
      (followed : context.tree.childEntries placed.entry = .ok entries) (isEntry : entry ∈ entries)
      (isFunction : context.tree.functionOfEntry entry = .ok (some function))
      (isSite : site ∈ function.getterAssets) (reported : site.report = .ok diagnostic) :
      Finding context .rootAssets (.entry placed) diagnostic
  | inAction {placed : PlacedEntry} {entries : List Node} {entry function : Node}
      {site : AssetSite} {diagnostic : Diagnostic} (isSection : placed.isActions = true)
      (followed : context.tree.childEntries placed.entry = .ok entries) (isEntry : entry ∈ entries)
      (isHandler : context.tree.actionHandler entry = .ok (some function))
      (isSite : site ∈ function.actionAssets) (reported : site.report = .ok diagnostic) :
      Finding context .rootAssets (.entry placed) diagnostic
  | atCall {span : Span} {callee : Node} {args : List Node} {name : String}
      {diagnostic : Diagnostic} (isName : callee.calleeName? = some name)
      (asks : (storeCalls.contains name && ((args.drop 1).take 2).any Node.isRootOption) = true)
      (reported :
        Rule.rootCalls.report span "avoidRootCalls" [("actionName", name)] = .ok diagnostic) :
      Finding context .rootCalls (.call span callee args) diagnostic

section Checks

variable {context : CheckContext} {diagnostics : List Diagnostic} {diagnostic : Diagnostic}

/-- What is found in the entries of a section is found in one of them. -/
theorem mem_of_section {check : Node → Except AnalysisError (List Diagnostic)}
    {children : Except AnalysisError (List Node)}
    (succeeds : (do
      let entries ← children
      let found ← entries.mapM check
      return found.flatten) = .ok diagnostics)
    (member : diagnostic ∈ diagnostics) :
    ∃ entries, children = .ok entries ∧
      ∃ entry ∈ entries, ∃ found, check entry = .ok found ∧ diagnostic ∈ found := by
  obtain ⟨entries, followed, later⟩ := bind_eq_ok_iff.mp succeeds
  obtain ⟨found, checked, isDiagnostics⟩ := bind_eq_ok_iff.mp later
  cases isDiagnostics
  obtain ⟨part, isPart, inPart⟩ := List.mem_flatten.mp member
  obtain ⟨entry, isEntry, gives⟩ := (mem_iff_of_mapM_eq_ok checked).mp isPart
  exact ⟨entries, followed, entry, isEntry, part, gives, inPart⟩

theorem report_of_checkDocumented {comments : CommentIndex} {entry : Node}
    (succeeds : checkDocumented comments entry = .ok diagnostics)
    (member : diagnostic ∈ diagnostics) :
    hasLeadingDoc (comments.before entry.docAnchor) = false ∧
      ∃ key, entry.entryKeySpan? = some key ∧
        Rule.requireDoc.report key "missingJsdoc" [] = .ok diagnostic := by
  unfold checkDocumented at succeeds
  split at succeeds
  · cases succeeds
    cases member
  next bare =>
    obtain ⟨missing, reported, isFound⟩ := bind_eq_ok_iff.mp succeeds
    cases isFound
    rw [List.mem_singleton.mp member]
    unfold Rule.reportKey at reported
    split at reported
    next key isKey => exact ⟨by simpa using bare, key, isKey, reported⟩
    next => cases reported

theorem report_of_reportAssets {functionOf : Node → Except AnalysisError (Option Node)}
    {assetsOf : Node → List AssetSite} {entry : Node}
    (succeeds : reportAssets functionOf assetsOf entry = .ok diagnostics)
    (member : diagnostic ∈ diagnostics) :
    ∃ function, functionOf entry = .ok (some function) ∧
      ∃ site ∈ assetsOf function, site.report = .ok diagnostic := by
  obtain ⟨function, found, reports⟩ := bind_eq_ok_iff.mp succeeds
  cases function with
  | none =>
      cases reports
      cases member
  | some function => exact ⟨function, found, (mem_iff_of_mapM_eq_ok reports).mp member⟩

theorem finding_of_requireDoc {placed : PlacedEntry}
    (succeeds : context.sections.check context.tree context.comments placed = .ok diagnostics)
    (member : diagnostic ∈ diagnostics) :
    Finding context .requireDoc (.entry placed) diagnostic := by
  unfold DocSections.check at succeeds
  split at succeeds
  next applies =>
    obtain ⟨entries, followed, entry, isEntry, found, checked, inFound⟩ :=
      mem_of_section succeeds member
    obtain ⟨bare, key, isKey, reported⟩ := report_of_checkDocumented checked inFound
    exact .undocumented applies followed isEntry bare isKey reported
  next =>
    cases succeeds
    cases member

theorem finding_of_rootAssets {placed : PlacedEntry}
    (succeeds : checkRootAssets context.tree placed = .ok diagnostics)
    (member : diagnostic ∈ diagnostics) :
    Finding context .rootAssets (.entry placed) diagnostic := by
  unfold checkRootAssets at succeeds
  split at succeeds
  next isSection =>
    obtain ⟨entries, followed, entry, isEntry, found, checked, inFound⟩ :=
      mem_of_section succeeds member
    obtain ⟨function, isFunction, site, isSite, reported⟩ := report_of_reportAssets checked inFound
    exact .inGetter isSection followed isEntry isFunction isSite reported
  next =>
    split at succeeds
    next isSection =>
      obtain ⟨entries, followed, entry, isEntry, found, checked, inFound⟩ :=
        mem_of_section succeeds member
      obtain ⟨function, isHandler, site, isSite, reported⟩ :=
        report_of_reportAssets checked inFound
      exact .inAction isSection followed isEntry isHandler isSite reported
    next =>
      cases succeeds
      cases member

theorem finding_of_rootCalls {span : Span} {callee : Node} {args : List Node}
    (succeeds : checkRootCall span callee args = .ok diagnostics)
    (member : diagnostic ∈ diagnostics) :
    Finding context .rootCalls (.call span callee args) diagnostic := by
  unfold checkRootCall at succeeds
  split at succeeds
  next =>
    cases succeeds
    cases member
  next name isName =>
    split at succeeds
    next asks =>
      obtain ⟨call, reported, isFound⟩ := bind_eq_ok_iff.mp succeeds
      cases isFound
      rw [List.mem_singleton.mp member]
      exact .atCall isName asks reported
    next =>
      cases succeeds
      cases member

theorem finding_of_check {rule : Rule} {target : Target}
    (succeeds : rule.check context target = .ok diagnostics) (member : diagnostic ∈ diagnostics) :
    Finding context rule target diagnostic := by
  unfold Rule.check at succeeds
  split at succeeds
  · exact finding_of_requireDoc succeeds member
  · exact finding_of_rootAssets succeeds member
  · exact finding_of_rootCalls succeeds member
  · cases succeeds
    cases member

theorem finding_of_mem_diagnosticsOf {check : Target × Rule}
    (member : diagnostic ∈ diagnosticsOf context check) :
    Finding context check.2 check.1 diagnostic := by
  unfold diagnosticsOf at member
  split at member
  next diagnostics succeeds => exact finding_of_check succeeds member
  next => cases member

theorem exists_finding_of_lint {parsed : ParsedSource} {file : String} {sections : DocSections}
    {rules : List Rule} (member : diagnostic ∈ (parsed.lint file sections rules).diagnostics) :
    ∃ check ∈ checksOf rules parsed.items,
      Finding (parsed.checkContext sections) check.2 check.1 diagnostic := by
  obtain ⟨check, isCheck, found⟩ := List.mem_flatMap.mp member
  exact ⟨check, isCheck, finding_of_mem_diagnosticsOf found⟩

end Checks

/-- The rule makes the diagnostic, with some data at some place. -/
def Rule.Reports (rule : Rule) (diagnostic : Diagnostic) : Prop :=
  ∃ span messageId data, rule.report span messageId data = .ok diagnostic

theorem Rule.diagnostic_eq_of_report {rule : Rule} {span : Span} {messageId : String}
    {data : Template.Values} {diagnostic : Diagnostic}
    (reported : rule.report span messageId data = .ok diagnostic) :
    ∃ template, rule.message? messageId = some template ∧
      diagnostic = { rule, messageId, message := Template.fill template data, data, span,
                     severity := rule.severity } := by
  unfold Rule.report at reported
  split at reported
  · cases reported
  · split at reported
    · cases reported
    next template known =>
      cases reported
      exact ⟨template, known, rfl⟩

theorem Rule.span_of_report {rule : Rule} {span : Span} {messageId : String}
    {data : Template.Values} {diagnostic : Diagnostic}
    (reported : rule.report span messageId data = .ok diagnostic) : diagnostic.span = span := by
  obtain ⟨template, _, rfl⟩ := Rule.diagnostic_eq_of_report reported
  rfl

theorem Rule.Reports.diagnostic_eq {rule : Rule} {diagnostic : Diagnostic}
    (reports : rule.Reports diagnostic) :
    diagnostic.rule = rule ∧ diagnostic.severity = rule.severity ∧
      (rule.message? diagnostic.messageId).isSome := by
  obtain ⟨span, messageId, data, reported⟩ := reports
  obtain ⟨template, known, rfl⟩ := Rule.diagnostic_eq_of_report reported
  exact ⟨rfl, rfl, by simp [known]⟩

/-- A rule only gives diagnostics of its own. -/
theorem Finding.reports {context : CheckContext} {rule : Rule} {target : Target}
    {diagnostic : Diagnostic} (finding : Finding context rule target diagnostic) :
    rule.Reports diagnostic := by
  cases finding with
  | undocumented _ _ _ _ _ reported => exact ⟨_, _, _, reported⟩
  | inGetter _ _ _ _ _ reported => exact ⟨_, _, _, reported⟩
  | inAction _ _ _ _ _ reported => exact ⟨_, _, _, reported⟩
  | atCall _ _ reported => exact ⟨_, _, _, reported⟩

theorem reports_of_mem_diagnosticsOf {context : CheckContext} {check : Target × Rule}
    {diagnostic : Diagnostic} (member : diagnostic ∈ diagnosticsOf context check) :
    check.2.Reports diagnostic :=
  (finding_of_mem_diagnosticsOf member).reports

theorem rule_of_mem_diagnosticsOf {context : CheckContext} {check : Target × Rule}
    {diagnostic : Diagnostic} (member : diagnostic ∈ diagnosticsOf context check) :
    diagnostic.rule = check.2 :=
  (reports_of_mem_diagnosticsOf member).diagnostic_eq.1

end StoreLint
