import StoreLint.Project.Check
import StoreLint.Proofs.Rule.Documentation

/-!
# Files that start with a byte order mark

A byte order mark is taken off before a file is parsed, so the tree, the comments and
all places are those of the file without the mark.  The text in which the gaps between
comments and entries are looked up keeps the mark.  A gap is therefore cut out three
bytes too early, and what lies in front of it decides whether the entry behind it
counts as documented.
-/

namespace StoreLint

/-- The text with a byte order mark in front of it, read from the same position on. -/
def SourceText.marked (source : SourceText) : SourceText :=
  { source with text := "\ufeff" ++ source.text }

/-- The parsed file with a byte order mark in front of the text of its comments. -/
def ParsedSource.marked (parsed : ParsedSource) : ParsedSource :=
  { parsed with source := parsed.source.marked }

theorem dropBytes_mark (chars : List Char) {count : Nat} (positive : 0 < count) :
    dropBytes ('\ufeff' :: chars) count =
      if 3 ≤ count then dropBytes chars (count - 3) else none := by
  have size : ('\ufeff' : Char).utf8Size = 3 := by decide
  obtain ⟨rest, rfl⟩ : ∃ rest, count = rest + 1 := ⟨count - 1, by omega⟩
  rw [dropBytes, size]

/-- Behind the mark, a stretch of the text is cut out three bytes too early. -/
theorem SourceText.slice_marked (source : SourceText) {lo hi : Nat}
    (behind : source.start < lo) :
    source.marked.slice lo hi = { source with start := source.start + 3 }.slice lo hi := by
  have chars : source.marked.text.toList = '\ufeff' :: source.text.toList := by
    simp [SourceText.marked]
  have sameStart : source.marked.start = source.start := rfl
  simp only [SourceText.slice, chars, sameStart, dropBytes_mark _ (Nat.sub_pos_of_lt behind)]
  by_cases early : lo < source.start + 3
  · have short : ¬3 ≤ lo - source.start := by omega
    simp [early, short]
  · have long : 3 ≤ lo - source.start := by omega
    have moved : lo - source.start - 3 = lo - (source.start + 3) := by omega
    have late : ¬lo < source.start := by omega
    simp [early, long, moved, late]

/-- A byte order mark is no part of what is parsed. -/
theorem ParsedSource.parse_marked {code : String}
    (unmarked : code.toList.head? ≠ some '\ufeff') (path : String) :
    parse path ("\ufeff" ++ code) = (parse path code).map marked := by
  have taken : withoutMark ("\ufeff" ++ code) = code.toList := by
    simp [withoutMark]
  have kept : withoutMark code = code.toList := by
    unfold withoutMark
    split
    next chars isMarked => simp [isMarked] at unmarked
    next => rfl
  simp only [parse, taken, kept]
  cases Grammar.parseModule (.ofPath path) firstPosition code.toList with
  | none => rfl
  | some module_ => rfl

/-- A byte order mark in front of a file leaves the tree, the comments and all places as they are,
and changes the result of linting exactly where an entry counts as documented with the mark and
not without it, or the other way round. -/
theorem ParsedSource.lint_marked_eq_iff {code : String}
    (unmarked : code.toList.head? ≠ some '\ufeff') (path : String) :
    parse path ("\ufeff" ++ code) = (parse path code).map marked ∧
    ∀ parsed : ParsedSource,
      (∀ file, parsed.marked.issue file = parsed.issue file) ∧
      (∀ lo hi, parsed.source.start < lo →
        parsed.marked.source.slice lo hi =
          { parsed.source with start := parsed.source.start + 3 }.slice lo hi) ∧
      ∀ file sections rules,
        ((∀ entry ∈ parsed.documented sections rules,
            isDocumented parsed.marked.commentIndex entry =
              isDocumented parsed.commentIndex entry) →
          parsed.marked.lint file sections rules = parsed.lint file sections rules) ∧
        (Keyed (parsed.documented sections rules) →
          parsed.marked.lint file sections rules = parsed.lint file sections rules →
          ∀ entry ∈ parsed.documented sections rules,
            isDocumented parsed.marked.commentIndex entry =
              isDocumented parsed.commentIndex entry) := by
  refine ⟨parse_marked unmarked path, fun parsed => ⟨fun file => rfl, ?_, ?_⟩⟩
  · intro lo hi behind
    exact parsed.source.slice_marked behind
  · intro file sections rules
    refine ⟨fun agree => lint_congr agree file, ?_⟩
    intro keyed same entry isEntry
    exact isDocumented_eq_of_lint_eq keyed same isEntry

/-- The file `export default { props: { /** doc*/ a: 1 }, data() {} }` after parsing. -/
def documentedProp : ParsedSource :=
  { span := ⟨1, 56⟩
    items := [.objectLiteral ⟨16, 56⟩
      [.keyValue (.plainKey ⟨18, 23⟩ (.identifier "props"))
          (.objectLiteral ⟨25, 43⟩
            [.keyValue (.plainKey ⟨37, 38⟩ (.identifier "a")) (.literal ⟨40, 41⟩ .other)]),
        .methodEntry (.plainKey ⟨45, 49⟩ (.identifier "data"))
          (.functionLike ⟨45, 54⟩ .ordinary none [] [] [])]]
    comments := [⟨.block, "* doc", ⟨27, 36⟩⟩]
    source := ⟨1, "export default \x7b props: \x7b /** doc*/ a: 1 \x7d, data() \x7b\x7d \x7d"⟩
    text := "export default \x7b props: \x7b /** doc*/ a: 1 \x7d, data() \x7b\x7d \x7d" }

/-- The comment `/** doc*/` is no longer seen once the file has a mark, since the byte in front of
the entry is then read as the `c` of the comment. -/
theorem ParsedSource.lint_marked_documentedProp :
    documentedProp.text.toList.head? ≠ some '\ufeff' ∧
      Keyed (documentedProp.documented {} Rule.checks) ∧
      parse "store.js" ("\ufeff" ++ documentedProp.text) =
        (parse "store.js" documentedProp.text).map marked ∧
      documentedProp.marked.lint "store.js" {} Rule.checks ≠
        documentedProp.lint "store.js" {} Rule.checks := by
  have unmarked : documentedProp.text.toList.head? ≠ some '\ufeff' := by decide
  have entries : documentedProp.documented {} Rule.checks =
      [.keyValue (.plainKey ⟨37, 38⟩ (.identifier "a")) (.literal ⟨40, 41⟩ .other)] := rfl
  have keyed : Keyed (documentedProp.documented {} Rule.checks) := by
    constructor
    · simp [entries, Node.entryKeySpan?, Node.span, Span.isDummy]
    · simp [entries]
  obtain ⟨parses, effect⟩ := lint_marked_eq_iff unmarked "store.js"
  refine ⟨unmarked, keyed, parses, ?_⟩
  intro same
  have agree := ((effect documentedProp).2.2 "store.js" {} Rule.checks).2 keyed same
  revert agree
  decide

end StoreLint
