import StoreLint.Project.Check
import StoreLint.Proofs.Report.Order
import StoreLint.Proofs.Source.Lines

/-!
# Reports follow the source

The issues of one file are reported in the order of their positions.  Of two positions
the earlier one is in an earlier line or in the same one, and in one line it has no
greater column, whatever line ends, tabs and characters without width or with a great
one stand before it.  Lines are counted from one, so one less than the number of a line
is its index in the table of lines.
-/

namespace StoreLint

namespace Issue

/-- The order of issues by file, line and column alone. -/
def placeOrder (left right : Issue) : Ordering :=
  (compare left.file right.file).then <|
    (compare left.line right.line).then <| compare left.column right.column

/-- Rule and message only count for issues at the same place. -/
theorem order_eq_placeOrder_then (left right : Issue) :
    left.order right = (left.placeOrder right).then
      ((compare left.rule.rank right.rule.rank).then <| compare left.message right.message) := by
  simp only [order, placeOrder, Ordering.then_assoc]

theorem placeOrder_eq_eq_iff {left right : Issue} :
    left.placeOrder right = .eq ↔
      left.file = right.file ∧ left.line = right.line ∧ left.column = right.column := by
  simp only [placeOrder, Ordering.then_eq_eq, Std.compare_eq_iff_eq]

/-- Issues of one file, of which the second is in a later line, or in the same line and not in an
earlier column. -/
theorem isLE_placeOrder {left right : Issue} (sameFile : left.file = right.file)
    (lineLe : left.line ≤ right.line)
    (columnLe : left.line = right.line → left.column ≤ right.column) :
    (left.placeOrder right).isLE = true := by
  rw [placeOrder, Std.compare_eq_iff_eq.mpr sameFile, Ordering.eq_then]
  rcases Nat.lt_or_eq_of_le lineLe with isEarlier | sameLine
  · rw [Nat.compare_eq_lt.mpr isEarlier]
    rfl
  · rw [Std.compare_eq_iff_eq.mpr sameLine, Ordering.eq_then, Nat.isLE_compare]
    exact columnLe sameLine

/-- An issue that is not at a later place comes first, unless both are at one place. -/
theorem order_eq_lt_or_of_isLE {left right : Issue}
    (isLE : (left.placeOrder right).isLE = true) :
    left.order right = .lt ∨ left.line = right.line ∧ left.column = right.column := by
  cases isOrder : left.placeOrder right with
  | lt =>
      left
      rw [order_eq_placeOrder_then, isOrder]
      rfl
  | eq => exact .inr (placeOrder_eq_eq_iff.mp isOrder).2
  | gt =>
      rw [isOrder] at isLE
      cases isLE

end Issue

namespace ParsedSource

/-- The position is in front of a character of the text, or at its end. -/
def Boundary (parsed : ParsedSource) (position : Nat) : Prop :=
  ∃ front back, parsed.text.toList = front ++ back ∧
    position = parsed.source.start + String.utf8Len front

/-- The issue is shown in the line of the position: its line less one is the index of that line in
the table of lines, and its column is one more than the sixteen-bit units of the text before the
position in that line, each character corrected by its width. -/
structure ShownAt (parsed : ParsedSource) (position : Nat) (issue : Issue) : Prop where
  line_pos : 1 ≤ issue.line
  column_pos : 1 ≤ issue.column
  counted : ∃ done before after, Place.Located parsed.text done before after ∧
    position = parsed.source.start + String.utf8Len (done ++ before) ∧
    (Place.lineStarts parsed.text)[issue.line - 1]? = some (String.utf8Len done) ∧
    (issue.column : Int) =
      1 + (before.map fun c => (Place.units c : Int) + Place.correction c).sum

variable {parsed : ParsedSource}

theorem isLE_placeOrder_issue (file : String) {first second : Diagnostic}
    (isBefore : first.span.lo ≤ second.span.lo) :
    ((parsed.issue file first).placeOrder (parsed.issue file second)).isLE = true := by
  have offsets := Nat.sub_le_sub_right isBefore parsed.source.start
  apply Issue.isLE_placeOrder
  · rfl
  · exact Place.line_le_of_le offsets
  · exact Place.column_le_of_le offsets

theorem shownAt_issue (hasText : parsed.text ≠ "") (file : String) {diagnostic : Diagnostic}
    (isBoundary : parsed.Boundary diagnostic.span.lo) :
    parsed.ShownAt diagnostic.span.lo (parsed.issue file diagnostic) := by
  refine ⟨Place.line_pos hasText _, Place.column_pos _ _, ?_⟩
  obtain ⟨front, after, isText, isPosition⟩ := isBoundary
  obtain ⟨done, before, rfl, located⟩ := Place.exists_located isText
  have isOffset : diagnostic.span.lo - parsed.source.start =
      String.utf8Len (done ++ before) := by
    omega
  refine ⟨done, before, after, located, isPosition, ?_, ?_⟩
  · change (Place.lineStarts parsed.text)[(Place.ofOffset parsed.text
      (diagnostic.span.lo - parsed.source.start)).line - 1]? = _
    rw [isOffset, Place.getElem?_lineStarts hasText, located.getLast?_reached hasText]
  · change ((Place.ofOffset parsed.text
      (diagnostic.span.lo - parsed.source.start)).column : Int) = _
    rw [isOffset, located.ofOffset_eq.1, ← Place.columns_eq_sum]
    exact Int.natCast_add 1 _

theorem parseModule_nil (dialect : Grammar.Dialect) :
    ∃ comments, Grammar.parseModule dialect firstPosition [] = some ⟨[], comments⟩ := by
  have noItems : (Grammar.parseModule dialect firstPosition []).map
      Grammar.ModuleText.items = some [] := rfl
  obtain ⟨⟨items, comments⟩, isModule, rfl⟩ := Option.map_eq_some_iff.mp noItems
  exact ⟨comments, isModule⟩

/-- A file without text, be it only behind its byte order mark, has no diagnostics. -/
theorem diagnostics_of_text_eq_empty {path code : String} (isParsed : parse path code = some parsed)
    (isEmpty : parsed.text = "") (file : String) (sections : DocSections) (rules : List Rule) :
    (parsed.lint file sections rules).diagnostics = [] := by
  obtain ⟨module_, isModule, isResult⟩ := Option.bind_eq_some_iff.mp isParsed
  cases isResult
  have noChars : withoutMark code = [] := by
    have noText := congrArg String.toList isEmpty
    simpa using noText
  obtain ⟨comments, isNothing⟩ := parseModule_nil (.ofPath path)
  rw [noChars, isNothing] at isModule
  cases isModule
  rfl

/-- Two issues of a file are reported in the order of their positions, unless they are shown at the
same place.  Lines and columns count from one in a file that has text, and a file without text has
no issues. -/
theorem issues_in_source_order (parsed : ParsedSource) (file : String) :
    (parsed.text ≠ "" → ∀ first second : Diagnostic, parsed.Boundary first.span.lo →
      parsed.Boundary second.span.lo → first.span.lo ≤ second.span.lo →
        ((parsed.issue file first).placeOrder (parsed.issue file second)).isLE = true ∧
        ((parsed.issue file first).order (parsed.issue file second) = .lt ∨
          parsed.place first.span.lo = parsed.place second.span.lo) ∧
        parsed.ShownAt first.span.lo (parsed.issue file first) ∧
        parsed.ShownAt second.span.lo (parsed.issue file second)) ∧
    ∀ path code, parse path code = some parsed → parsed.text = "" →
      ∀ sections rules, (parsed.lint file sections rules).diagnostics = [] := by
  constructor
  · intro hasText first second isFirst isSecond isBefore
    have isLE := @isLE_placeOrder_issue parsed file first second isBefore
    refine ⟨isLE, ?_, shownAt_issue hasText file isFirst, shownAt_issue hasText file isSecond⟩
    apply (Issue.order_eq_lt_or_of_isLE isLE).imp_right
    rintro ⟨sameLine, sameColumn⟩
    exact Place.mk.injEq .. |>.mpr ⟨sameLine, sameColumn, Place.sourceLine_eq sameLine⟩
  · intro path code isParsed isEmpty sections rules
    exact diagnostics_of_text_eq_empty isParsed isEmpty file sections rules

end ParsedSource

def rootCallAt (position : Nat) : Diagnostic :=
  { rule := .rootCalls
    messageId := "avoidRootCalls"
    message := "Don't commit in the global namespace."
    data := [("actionName", "commit")]
    span := ⟨position, position⟩
    severity := .error }

/-- A file whose first line ends with a carriage return, with a tab and a wide character in the
second line, which ends with the file. -/
def wideLines : ParsedSource :=
  { span := ⟨1, 9⟩
    items := []
    comments := []
    source := ⟨1, "a\r\t你b\n"⟩
    text := "a\r\t你b\n" }

/-- The position of the letter `b` is reported before the end of the file, and a file that only
holds a byte order mark has nothing to report. -/
theorem ParsedSource.issues_in_source_order_wideLines :
    wideLines.text ≠ "" ∧ wideLines.Boundary 7 ∧ wideLines.Boundary 9 ∧
      wideLines.place 7 = ⟨2, 7, "\t你b"⟩ ∧ wideLines.place 9 = ⟨2, 9, "\t你b"⟩ ∧
      (wideLines.issue "a.js" (rootCallAt 7)).order (wideLines.issue "a.js" (rootCallAt 9)) =
        .lt ∧
      ∃ parsed, parse "a.js" "\ufeff" = some parsed ∧ parsed.text = "" ∧
        (parsed.lint "a.js" {} Rule.checks).diagnostics = [] := by
  have hasText : wideLines.text ≠ "" := by decide
  have isLetter : wideLines.Boundary 7 := ⟨['a', '\r', '\t', '你'], ['b', '\n'], rfl, rfl⟩
  have isEnd : wideLines.Boundary 9 := ⟨['a', '\r', '\t', '你', 'b', '\n'], [], rfl, rfl⟩
  have atLetter : wideLines.place 7 = ⟨2, 7, "\t你b"⟩ := by decide +kernel
  have atEnd : wideLines.place 9 = ⟨2, 9, "\t你b"⟩ := by decide +kernel
  obtain ⟨inOrder, _⟩ := issues_in_source_order wideLines "a.js"
  obtain ⟨_, comesFirst | samePlace, _⟩ :=
    inOrder hasText (rootCallAt 7) (rootCallAt 9) isLetter isEnd (by decide)
  · obtain ⟨comments, isModule⟩ := parseModule_nil (.ofPath "a.js")
    have isParsed : parse "a.js" "\ufeff" = some
        { span := ⟨1, 1⟩, items := [], comments, source := ⟨1, "\ufeff"⟩, text := "" } := by
      have noChars : withoutMark "\ufeff" = [] := by decide
      simp only [parse, noChars, isModule]
      rfl
    have nothing := (issues_in_source_order _ "a.js").2 "a.js" "\ufeff" isParsed rfl
    exact ⟨hasText, isLetter, isEnd, atLetter, atEnd, comesFirst, _, isParsed, rfl, nothing _ _⟩
  · change wideLines.place 7 = wideLines.place 9 at samePlace
    rw [atLetter, atEnd] at samePlace
    cases samePlace

end StoreLint
