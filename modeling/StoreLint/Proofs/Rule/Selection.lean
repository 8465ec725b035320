import StoreLint.Proofs.Rule.Documentation

/-!
# Selecting rules

A file is linted with some of the rules by leaving the checks of the other rules out.
A check gives diagnostics and defects of its own rule only, so the result is the part
of the full result that belongs to the rules in question, in the same order.
-/

namespace StoreLint

/-- The part of a result that belongs to the rules in question. -/
def LintResult.keeping (keep : Rule → Bool) (result : LintResult) : LintResult :=
  { diagnostics := result.diagnostics.filter fun diagnostic => keep diagnostic.rule
    defects := result.defects.filter fun defect => keep defect.rule }

section Checks

variable {context : CheckContext} {file : String} {keep : Rule → Bool}

theorem checksOf_filter (rules : List Rule) (items : List Node) :
    checksOf (rules.filter keep) items =
      (checksOf rules items).filter fun check => keep check.2 := by
  unfold checksOf
  rw [List.filter_flatMap]
  apply List.flatMap_congr
  intro target _
  rw [List.filter_map, List.filter_filter, List.filter_filter]
  congr 1
  apply List.filter_congr
  intro rule _
  exact Bool.and_comm _ _

theorem filter_diagnosticsOf (check : Target × Rule) :
    ((diagnosticsOf context check).filter fun diagnostic => keep diagnostic.rule) =
      if keep check.2 then diagnosticsOf context check else [] := by
  have ofRule : ∀ diagnostic ∈ diagnosticsOf context check, keep diagnostic.rule = keep check.2 :=
    fun diagnostic member => congrArg keep (rule_of_mem_diagnosticsOf member)
  by_cases kept : keep check.2 = true
  · rw [if_pos kept]
    apply List.filter_eq_self.mpr
    intro diagnostic member
    rw [ofRule diagnostic member, kept]
  · rw [if_neg kept]
    apply List.filter_eq_nil_iff.mpr
    intro diagnostic member
    rw [ofRule diagnostic member]
    exact kept

theorem filter_defectOf? (check : Target × Rule) :
    ((defectOf? context file check).filter fun defect => keep defect.rule) =
      if keep check.2 then defectOf? context file check else none := by
  unfold defectOf?
  cases check.2.check context check.1 with
  | ok diagnostics => simp
  | error error => simp [Option.filter]

theorem flatMap_diagnosticsOf_filter (checks : List (Target × Rule)) :
    (checks.filter fun check => keep check.2).flatMap (diagnosticsOf context) =
      (checks.flatMap (diagnosticsOf context)).filter fun diagnostic => keep diagnostic.rule := by
  induction checks with
  | nil => rfl
  | cons check checks induction =>
      rw [List.flatMap_cons, List.filter_append, filter_diagnosticsOf, ← induction,
        List.filter_cons]
      by_cases kept : keep check.2 = true
      · rw [if_pos kept, if_pos kept, List.flatMap_cons]
      · rw [if_neg kept, if_neg kept, List.nil_append]

theorem filterMap_defectOf?_filter (checks : List (Target × Rule)) :
    (checks.filter fun check => keep check.2).filterMap (defectOf? context file) =
      (checks.filterMap (defectOf? context file)).filter fun defect => keep defect.rule := by
  rw [List.filterMap_filter, List.filter_filterMap]
  congr 1
  funext check
  exact (filter_defectOf? check).symm

end Checks

/-- Linting with some of the rules gives their part of the result. -/
theorem lint_filter (parsed : ParsedSource) (file : String) (sections : DocSections)
    (rules : List Rule) (keep : Rule → Bool) :
    parsed.lint file sections (rules.filter keep) =
      (parsed.lint file sections rules).keeping keep := by
  unfold ParsedSource.lint LintResult.keeping
  dsimp only
  rw [checksOf_filter, flatMap_diagnosticsOf_filter, filterMap_defectOf?_filter]

/-- Whether a rule is among the selected ones, of which none means all. -/
def Rule.isSelected (selected : List Rule) (rule : Rule) : Bool :=
  selected.isEmpty || selected.contains rule

theorem Rule.isSelected_congr {selected others : List Rule}
    (same : ∀ rule, rule ∈ others ↔ rule ∈ selected) (rule : Rule) :
    rule.isSelected others = rule.isSelected selected := by
  have isEmpty : others.isEmpty = selected.isEmpty := by
    rw [Bool.eq_iff_iff, List.isEmpty_iff, List.isEmpty_iff, List.eq_nil_iff_forall_not_mem,
      List.eq_nil_iff_forall_not_mem]
    exact forall_congr' fun rule => not_congr (same rule)
  have contains : others.contains rule = selected.contains rule := by
    rw [Bool.eq_iff_iff, List.contains_iff_mem, List.contains_iff_mem]
    exact same rule
  rw [isSelected, isSelected, isEmpty, contains]

theorem Rule.filter_selected_eq {selected : List Rule} {rule : Rule}
    (member : rule ∈ Rule.selected selected) :
    (Rule.selected selected).filter (· == rule) = [rule] := by
  obtain ⟨isCheck, isKept⟩ := List.mem_filter.mp member
  have kept : rule.isSelected selected = true := isKept
  have once : checks.filter (· == rule) = [rule] := by
    cases rule with
    | parseError => simp [checks] at isCheck
    | _ => rfl
  have swapped : (Rule.selected selected).filter (· == rule) =
      (checks.filter (· == rule)).filter (isSelected selected) := by
    rw [Rule.selected, List.filter_filter, List.filter_filter]
    apply List.filter_congr
    intro other _
    exact Bool.and_comm _ _
  rw [swapped, once, List.filter_cons_of_pos kept, List.filter_nil]

/-- Linting with selected rules gives what is left of the full result when everything of the other
rules is taken away.  So only the set of the selected rules matters, and what a rule contributes is
what it gives when it runs alone. -/
theorem lint_selected (parsed : ParsedSource) (file : String) (sections : DocSections)
    (selected : List Rule) :
    parsed.lint file sections (Rule.selected selected) =
        (parsed.lint file sections Rule.checks).keeping (Rule.isSelected selected) ∧
      (∀ others : List Rule, (∀ rule, rule ∈ others ↔ rule ∈ selected) →
        parsed.lint file sections (Rule.selected others) =
          parsed.lint file sections (Rule.selected selected)) ∧
      ∀ rule ∈ Rule.selected selected,
        (parsed.lint file sections (Rule.selected selected)).keeping (· == rule) =
          parsed.lint file sections [rule] := by
  have filtered : ∀ names : List Rule,
      Rule.selected names = Rule.checks.filter (Rule.isSelected names) := fun _ => rfl
  refine ⟨?_, ?_, ?_⟩
  · rw [filtered, lint_filter]
  · intro others same
    rw [filtered, filtered, funext (Rule.isSelected_congr same)]
  · intro rule isSelected
    rw [← lint_filter, Rule.filter_selected_eq isSelected]

/-- The file `commit('a', 0, { root: true }); ({ state: {}, actions });`, whose actions are declared
nowhere. -/
def undeclaredActions : ParsedSource :=
  { span := ⟨1, 60⟩
    items := [
      .call ⟨1, 31⟩ (.identifier ⟨"commit", ⟨1, 7⟩⟩)
        [.literal ⟨8, 11⟩ (.string (some "a")), .literal ⟨13, 14⟩ .other,
          .objectLiteral ⟨16, 30⟩
            [.keyValue (.plainKey ⟨18, 22⟩ (.identifier "root"))
              (.literal ⟨24, 28⟩ (.boolean true))]] [],
      .objectLiteral ⟨34, 56⟩
        [.keyValue (.plainKey ⟨36, 41⟩ (.identifier "state")) (.objectLiteral ⟨43, 45⟩ []),
          .shorthand ⟨"actions", ⟨47, 54⟩⟩]]
    comments := []
    source := ⟨1, ""⟩
    text := "" }

theorem lint_selected_undeclaredActions :
    (∀ rule, rule ∈ [Rule.rootAssets, .rootCalls] ↔
        rule ∈ [Rule.rootCalls, .rootAssets, .rootCalls]) ∧
      Rule.rootCalls ∈ Rule.selected [.rootCalls, .rootAssets, .rootCalls] ∧
      undeclaredActions.lint "store.js" { actions := true }
          (Rule.selected [.rootAssets, .rootCalls]) =
        undeclaredActions.lint "store.js" { actions := true }
          (Rule.selected [.rootCalls, .rootAssets, .rootCalls]) ∧
      (undeclaredActions.lint "store.js" { actions := true }
          (Rule.selected [.rootCalls, .rootAssets, .rootCalls])).keeping (· == .rootCalls) =
        undeclaredActions.lint "store.js" { actions := true } [.rootCalls] ∧
      (undeclaredActions.lint "store.js" { actions := true } Rule.checks).defects.map Defect.rule =
        [.requireDoc, .rootAssets] := by
  have same : ∀ rule, rule ∈ [Rule.rootAssets, .rootCalls] ↔
      rule ∈ [Rule.rootCalls, .rootAssets, .rootCalls] := by
    intro rule
    cases rule <;> simp
  have isSelected : Rule.rootCalls ∈ Rule.selected [.rootCalls, .rootAssets, .rootCalls] := by
    decide
  obtain ⟨_, sameSet, alone⟩ := lint_selected undeclaredActions "store.js" { actions := true }
    [.rootCalls, .rootAssets, .rootCalls]
  exact ⟨same, isSelected, sameSet _ same, alone _ isSelected, by decide⟩

end StoreLint
