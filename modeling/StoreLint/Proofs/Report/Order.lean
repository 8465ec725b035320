import Mathlib.Data.Multiset.Filter
import StoreLint.Report.Issue

/-!
# The order of issues

Issues are compared by file, line, column, rule and message.  The comparison is total
and transitive, so sorting puts the issues into ascending order.  It does not see
every field of an issue: a list of issues has one ascending order only if issues that
compare equal are equal.
-/

namespace StoreLint

theorem Rule.rank_injective : Function.Injective Rule.rank := by
  intro first second same
  cases first <;> cases second <;> first | rfl | cases same

namespace Issue

instance : Std.TransCmp Issue.order :=
  inferInstanceAs (Std.TransCmp (compareLex (compareOn Issue.file)
    (compareLex (compareOn Issue.line) (compareLex (compareOn Issue.column)
      (compareLex (compareOn fun issue => issue.rule.rank) (compareOn Issue.message))))))

/-- The issue does not come after the other one. -/
def Precedes (left right : Issue) : Prop := (left.order right).isLE = true

/-- Issues that compare equal agree in what is compared. -/
theorem order_eq_eq_iff {left right : Issue} :
    left.order right = .eq ↔
      left.file = right.file ∧ left.line = right.line ∧ left.column = right.column ∧
        left.rule = right.rule ∧ left.message = right.message := by
  simp only [order, Ordering.then_eq_eq, Std.compare_eq_iff_eq, Rule.rank_injective.eq_iff]

/-- Issues of which none comes after the other compare equal. -/
theorem Precedes.order_eq {left right : Issue} (forth : left.Precedes right)
    (back : right.Precedes left) : left.order right = .eq :=
  Std.OrientedCmp.isLE_antisymm forth back

theorem sorted_perm (issues : List Issue) : (sorted issues).Perm issues :=
  List.mergeSort_perm issues _

theorem pairwise_sorted (issues : List Issue) : (sorted issues).Pairwise Precedes := by
  apply List.pairwise_mergeSort
  · intro first second third
    exact Std.TransCmp.isLE_trans
  · intro first second
    rw [Bool.or_eq_true]
    cases isOrder : first.order second with
    | lt => exact Or.inl rfl
    | eq => exact Or.inl rfl
    | gt =>
        have reversed : second.order first = .lt := Std.OrientedCmp.gt_iff_lt.mp isOrder
        rw [reversed]
        exact Or.inr rfl

end Issue

/-- The list holds what was found, each as often as it was found, in ascending order. -/
structure IsReport (found : Multiset Issue) (issues : List Issue) : Prop where
  holds : (issues : Multiset Issue) = found
  ascending : issues.Pairwise Issue.Precedes

/-- Issues that compare equal are one issue. -/
def Separated (found : Multiset Issue) : Prop :=
  ∀ first ∈ found, ∀ second ∈ found, first.order second = .eq → first = second

namespace IsReport

variable {found : Multiset Issue} {issues others : List Issue}

theorem sorted (isFound : (issues : Multiset Issue) = found) :
    IsReport found (Issue.sorted issues) := by
  constructor
  · rw [← isFound]
    exact Multiset.coe_eq_coe.mpr (Issue.sorted_perm issues)
  · exact Issue.pairwise_sorted issues

/-- There is only one report where issues that compare equal are equal. -/
theorem unique (separated : Separated found) (first : IsReport found issues)
    (second : IsReport found others) : issues = others := by
  have perm : issues.Perm others :=
    Multiset.coe_eq_coe.mp (first.holds.trans second.holds.symm)
  apply perm.eq_of_pairwise _ first.ascending second.ascending
  intro left right isLeft isRight forth back
  apply separated left _ right _ (forth.order_eq back)
  · rw [← first.holds]
    exact isLeft
  · rw [← second.holds]
    exact isRight

/-- Leaving issues out of a report leaves a report of the others. -/
theorem filter (report : IsReport found issues) (keep : Issue → Bool) :
    IsReport (found.filter fun issue => keep issue = true) (issues.filter keep) := by
  constructor
  · rw [← report.holds, Multiset.filter_coe]
    simp only [Bool.decide_eq_true]
  · exact report.ascending.filter keep

end IsReport

theorem Separated.filter {found : Multiset Issue} (separated : Separated found)
    (keep : Issue → Prop) [DecidablePred keep] : Separated (found.filter keep) := by
  intro first isFirst second isSecond same
  exact separated first (Multiset.mem_of_mem_filter isFirst) second
    (Multiset.mem_of_mem_filter isSecond) same

end StoreLint
