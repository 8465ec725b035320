import Mathlib.Data.List.Basic
import StoreLint.Proofs.Rule.Findings

/-!
# What the documentation rule depends on

Of the comments of a file, linting only sees which entries are documented.  So two
comment indexes give the same result as soon as they agree on the entries whose
documentation is looked up (`lint_congr`).  If the keys of these entries stand at
places of their own, they give the same result only then (`isDocumented_eq_of_lint_eq`).
-/

namespace StoreLint

/-- Whether an entry has documentation in front of it. -/
def isDocumented (comments : CommentIndex) (entry : Node) : Bool :=
  hasLeadingDoc (comments.before entry.docAnchor)

/-- The entries of a section that need documentation. -/
def DocSections.entries (sections : DocSections) (tree : ScopeTree) (placed : PlacedEntry) :
    List Node :=
  if sections.appliesTo placed then
    match tree.childEntries placed.entry with
    | .ok entries => entries
    | .error _ => []
  else []

/-- The entries whose documentation a check looks up. -/
def CheckContext.documented (context : CheckContext) : Target × Rule → List Node
  | (.entry placed, .requireDoc) => context.sections.entries context.tree placed
  | _ => []

/-- The entries whose documentation is looked up when a file is linted. -/
def ParsedSource.documented (parsed : ParsedSource) (sections : DocSections)
    (rules : List Rule) : List Node :=
  (checksOf rules parsed.items).flatMap (parsed.checkContext sections).documented

/-- The diagnostic at an entry without documentation. -/
def missingDoc (key : Span) : Diagnostic :=
  { rule := .requireDoc
    messageId := "missingJsdoc"
    message := Template.fill "Missing JSDoc comment." []
    data := []
    span := key
    severity := .warning }

theorem mapM_congr_of_mem {α β ε : Type} {first second : α → Except ε β} {items : List α}
    (same : ∀ item ∈ items, first item = second item) : items.mapM first = items.mapM second := by
  induction items with
  | nil => rfl
  | cons item items induction =>
      have rest := induction fun other isOther => same other (List.mem_cons_of_mem _ isOther)
      simp only [List.mapM_cons, same item (by simp), rest]

theorem DocSections.check_congr {sections : DocSections} {tree : ScopeTree}
    {comments others : CommentIndex} {placed : PlacedEntry}
    (same : ∀ entry ∈ sections.entries tree placed,
      isDocumented others entry = isDocumented comments entry) :
    sections.check tree others placed = sections.check tree comments placed := by
  by_cases applies : sections.appliesTo placed = true
  · cases found : tree.childEntries placed.entry with
    | error error => simp only [DocSections.check, applies, found, bind, Except.bind]
    | ok entries =>
        have isEntries : sections.entries tree placed = entries := by
          simp [DocSections.entries, applies, found]
        have checks : entries.mapM (checkDocumented others) =
            entries.mapM (checkDocumented comments) := by
          refine mapM_congr_of_mem fun entry isEntry => ?_
          have documented := same entry (isEntries ▸ isEntry)
          unfold isDocumented at documented
          rw [checkDocumented, checkDocumented, documented]
        simp only [DocSections.check, applies, found, bind, Except.bind, checks]
  · simp [DocSections.check, applies]

theorem Rule.check_congr {context : CheckContext} {others : CommentIndex} {check : Target × Rule}
    (same : ∀ entry ∈ context.documented check,
      isDocumented others entry = isDocumented context.comments entry) :
    check.2.check { context with comments := others } check.1 = check.2.check context check.1 := by
  obtain ⟨target, rule⟩ := check
  cases target with
  | entry placed =>
      cases rule with
      | requireDoc => exact DocSections.check_congr same
      | _ => rfl
  | call span callee args => cases rule <;> rfl

/-- The context in which the rules check a file whose comments are looked up in another text. -/
theorem checkContext_with_source (parsed : ParsedSource) (source : SourceText)
    (sections : DocSections) :
    ({ parsed with source }).checkContext sections =
      { parsed.checkContext sections with
        comments := { parsed.commentIndex with source } } := rfl

/-- Linting gives the same with two texts that agree on the entries whose documentation is
looked up. -/
theorem lint_congr {parsed : ParsedSource} {source : SourceText} {sections : DocSections}
    {rules : List Rule}
    (same : ∀ entry ∈ parsed.documented sections rules,
      isDocumented { parsed.commentIndex with source } entry =
        isDocumented parsed.commentIndex entry) (file : String) :
    ({ parsed with source }).lint file sections rules = parsed.lint file sections rules := by
  have checks : ∀ check ∈ checksOf rules parsed.items,
      check.2.check (({ parsed with source }).checkContext sections) check.1 =
        check.2.check (parsed.checkContext sections) check.1 := by
    intro check isCheck
    rw [checkContext_with_source]
    refine Rule.check_congr fun entry isEntry => ?_
    exact same entry (List.mem_flatMap.mpr ⟨check, isCheck, isEntry⟩)
  rw [ParsedSource.lint, ParsedSource.lint]
  congr 1
  · refine List.flatMap_congr fun check isCheck => ?_
    rw [diagnosticsOf, diagnosticsOf, checks check isCheck]
  · refine List.filterMap_congr fun check isCheck => ?_
    rw [defectOf?, defectOf?, checks check isCheck]

theorem exists_mapM_eq_ok {α β ε : Type} {check : α → Except ε β} {items : List α}
    (each : ∀ item ∈ items, ∃ result, check item = .ok result) :
    ∃ results, items.mapM check = .ok results := by
  induction items with
  | nil => exact ⟨[], rfl⟩
  | cons item items induction =>
      obtain ⟨value, first⟩ := each item (by simp)
      obtain ⟨values, rest⟩ := induction fun other isOther =>
        each other (List.mem_cons_of_mem _ isOther)
      refine ⟨value :: values, ?_⟩
      rw [List.mapM_cons]
      exact bind_eq_ok_iff.mpr ⟨value, first, bind_eq_ok_iff.mpr ⟨values, rest, rfl⟩⟩

/-- Entries whose keys stand in the file, each at a place that tells where the documentation of
its entry would stand. -/
structure Keyed (entries : List Node) : Prop where
  placed : ∀ entry ∈ entries, ∃ key, entry.entryKeySpan? = some key ∧ key.isDummy = false
  anchored : ∀ first ∈ entries, ∀ second ∈ entries,
    first.entryKeySpan? = second.entryKeySpan? → first.docAnchor = second.docAnchor

theorem checkDocumented_eq {entry : Node} {key : Span} (isKey : entry.entryKeySpan? = some key)
    (real : key.isDummy = false) (comments : CommentIndex) :
    checkDocumented comments entry =
      .ok (if isDocumented comments entry then [] else [missingDoc key]) := by
  have reported : Rule.requireDoc.report key "missingJsdoc" [] = .ok (missingDoc key) := by
    simp [Rule.report, real, Rule.message?, Rule.messages, missingDoc, Rule.severity]
  unfold checkDocumented isDocumented
  split
  · rfl
  · simp [Rule.reportKey, isKey, reported, bind, Except.bind, pure, Except.pure]

/-- Which diagnostics the documentation rule gives at the entries of a section. -/
theorem mem_diagnosticsOf_requireDoc {context : CheckContext} {placed : PlacedEntry}
    (keyed : ∀ entry ∈ context.documented (.entry placed, .requireDoc),
      ∃ key, entry.entryKeySpan? = some key ∧ key.isDummy = false) (diagnostic : Diagnostic) :
    diagnostic ∈ diagnosticsOf context (.entry placed, .requireDoc) ↔
      ∃ entry ∈ context.documented (.entry placed, .requireDoc),
        isDocumented context.comments entry = false ∧
          ∃ key, entry.entryKeySpan? = some key ∧ diagnostic = missingDoc key := by
  simp only [CheckContext.documented, DocSections.entries] at keyed ⊢
  simp only [diagnosticsOf, Rule.check, DocSections.check]
  by_cases applies : context.sections.appliesTo placed = true
  · cases found : context.tree.childEntries placed.entry with
    | error error => simp [applies, bind, Except.bind]
    | ok entries =>
        simp only [applies, found, if_true] at keyed ⊢
        have each : ∀ entry ∈ entries, ∃ result,
            checkDocumented context.comments entry = .ok result := by
          intro entry isEntry
          obtain ⟨key, isKey, real⟩ := keyed entry isEntry
          exact ⟨_, checkDocumented_eq isKey real context.comments⟩
        obtain ⟨results, checked⟩ := exists_mapM_eq_ok each
        simp only [bind, Except.bind, checked, pure, Except.pure, List.mem_flatten,
          mem_iff_of_mapM_eq_ok checked]
        constructor
        · rintro ⟨part, ⟨entry, isEntry, gives⟩, inPart⟩
          obtain ⟨key, isKey, real⟩ := keyed entry isEntry
          rw [checkDocumented_eq isKey real, Except.ok.injEq] at gives
          subst gives
          by_cases documented : isDocumented context.comments entry = true
          · simp [documented] at inPart
          · simp only [documented] at inPart
            exact ⟨entry, isEntry, by simpa using documented, key, isKey, by simpa using inPart⟩
        · rintro ⟨entry, isEntry, undocumented, key, isKey, rfl⟩
          obtain ⟨other, isOther, real⟩ := keyed entry isEntry
          obtain rfl : key = other := Option.some.inj (isKey.symm.trans isOther)
          refine ⟨[missingDoc key], ⟨entry, isEntry, ?_⟩, by simp⟩
          rw [checkDocumented_eq isKey real, undocumented]
          rfl
  · simp [applies]

/-- Which diagnostics the documentation rule gives when a file is linted. -/
theorem mem_lint_requireDoc_iff {parsed : ParsedSource} {file : String} {sections : DocSections}
    {rules : List Rule} (keyed : Keyed (parsed.documented sections rules))
    {diagnostic : Diagnostic} (isDoc : diagnostic.rule = .requireDoc) :
    diagnostic ∈ (parsed.lint file sections rules).diagnostics ↔
      ∃ entry ∈ parsed.documented sections rules,
        isDocumented parsed.commentIndex entry = false ∧
          ∃ key, entry.entryKeySpan? = some key ∧ diagnostic = missingDoc key := by
  have ofCheck : ∀ check ∈ checksOf rules parsed.items,
      (diagnostic ∈ diagnosticsOf (parsed.checkContext sections) check ↔
        ∃ entry ∈ (parsed.checkContext sections).documented check,
          isDocumented parsed.commentIndex entry = false ∧
            ∃ key, entry.entryKeySpan? = some key ∧ diagnostic = missingDoc key) := by
    rintro ⟨target, rule⟩ isCheck
    cases rule with
    | requireDoc =>
        cases target with
        | entry placed =>
            refine mem_diagnosticsOf_requireDoc (fun entry isEntry => ?_) diagnostic
            exact keyed.placed entry (List.mem_flatMap.mpr ⟨_, isCheck, isEntry⟩)
        | call span callee args =>
            simp [CheckContext.documented, diagnosticsOf, Rule.check]
    | _ =>
        constructor
        · intro member
          cases isDoc.symm.trans (rule_of_mem_diagnosticsOf member)
        · simp [CheckContext.documented]
  constructor
  · intro member
    obtain ⟨check, isCheck, found⟩ := List.mem_flatMap.mp member
    obtain ⟨entry, isEntry, rest⟩ := (ofCheck check isCheck).mp found
    exact ⟨entry, List.mem_flatMap.mpr ⟨check, isCheck, isEntry⟩, rest⟩
  · rintro ⟨entry, member, rest⟩
    obtain ⟨check, isCheck, isEntry⟩ := List.mem_flatMap.mp member
    exact List.mem_flatMap.mpr ⟨check, isCheck, (ofCheck check isCheck).mpr ⟨entry, isEntry, rest⟩⟩

/-- An entry that only one of two texts documents is reported for the other text alone. -/
theorem isDocumented_of_lint_subset {first second : ParsedSource} {file : String}
    {sections : DocSections} {rules : List Rule}
    (keyed : Keyed (first.documented sections rules))
    (sameEntries : second.documented sections rules = first.documented sections rules)
    (subset : (second.lint file sections rules).diagnostics ⊆
      (first.lint file sections rules).diagnostics)
    {entry : Node} (isEntry : entry ∈ first.documented sections rules)
    (documented : isDocumented first.commentIndex entry = true) :
    isDocumented second.commentIndex entry = true := by
  by_contra undocumented
  obtain ⟨key, isKey, real⟩ := keyed.placed entry isEntry
  have reported : missingDoc key ∈ (second.lint file sections rules).diagnostics :=
    (mem_lint_requireDoc_iff (sameEntries ▸ keyed) rfl).mpr
      ⟨entry, sameEntries ▸ isEntry, by simpa using undocumented, key, isKey, rfl⟩
  obtain ⟨other, isOther, otherUndocumented, otherKey, isOtherKey, sameReport⟩ :=
    (mem_lint_requireDoc_iff keyed rfl).mp (subset reported)
  have sameKey : key = otherKey := congrArg Diagnostic.span sameReport
  have sameAnchor := keyed.anchored entry isEntry other isOther
    (isKey.trans (sameKey ▸ isOtherKey.symm))
  unfold isDocumented at documented otherUndocumented
  rw [← sameAnchor, documented] at otherUndocumented
  cases otherUndocumented

/-- Where the keys stand at places of their own, two texts that give the same result agree on the
entries whose documentation is looked up. -/
theorem isDocumented_eq_of_lint_eq {parsed : ParsedSource} {source : SourceText} {file : String}
    {sections : DocSections} {rules : List Rule}
    (keyed : Keyed (parsed.documented sections rules))
    (same : ({ parsed with source }).lint file sections rules = parsed.lint file sections rules)
    {entry : Node} (isEntry : entry ∈ parsed.documented sections rules) :
    isDocumented { parsed.commentIndex with source } entry =
      isDocumented parsed.commentIndex entry := by
  have sameEntries : ({ parsed with source }).documented sections rules =
      parsed.documented sections rules := rfl
  rw [Bool.eq_iff_iff]
  constructor
  · intro documented
    exact @isDocumented_of_lint_subset { parsed with source } parsed file sections rules keyed
      sameEntries (by rw [same]; exact List.Subset.refl _) entry isEntry documented
  · intro documented
    exact @isDocumented_of_lint_subset parsed { parsed with source } file sections rules keyed
      sameEntries (by rw [same]; exact List.Subset.refl _) entry isEntry documented

end StoreLint
