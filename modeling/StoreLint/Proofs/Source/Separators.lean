import StoreLint.Proofs.Rule.Documentation
import StoreLint.Proofs.Source.LeadingRun
import StoreLint.Proofs.Tree.Nesting

/-!
# Comments stay behind the separator

In front of each entry of an object literal stands a separator: the opening brace, or
the comma behind the entry before it.  It is no white space, no modifier and no part of
a comment, so the gap that holds it ends every run of comments that comes from further
on.  The comments in front of an entry therefore start behind its separator, and what
stands in front of the separator does not matter to them.

Where the separators stand is for the parser to say.  `Delimited` is what it promises of
a file, in terms of the text that positions refer to; this is the text of the comments
if the file has no byte order mark.
-/

namespace StoreLint

/-- The marks that separate the entries of an object literal from what is before them. -/
def entrySeparators : List Char := ['\x7b', ',']

theorem not_isBlank_of_separator : ∀ mark ∈ entrySeparators, Blank.isBlank mark = false := by
  have allMarks : entrySeparators.all (fun mark => !Blank.isBlank mark) = true := by decide
  simpa using allMarks

theorem not_mem_modifier_of_separator :
    ∀ mark ∈ entrySeparators, ∀ word ∈ modifierWords, mark ∉ word := by
  have allMarks : entrySeparators.all (fun mark =>
      modifierWords.all fun word => !word.contains mark) = true := by
    decide
  simpa using allMarks

/-- No separator stands among white space and modifiers. -/
theorem ModifierText.not_mem {gap : List Char} (isText : ModifierText gap) {mark : Char}
    (separates : mark ∈ entrySeparators) : mark ∉ gap := by
  induction isText with
  | nil => exact List.not_mem_nil
  | blank isBlank _ induction =>
      intro member
      rcases List.mem_cons.mp member with rfl | further
      · rw [not_isBlank_of_separator _ separates] at isBlank
        cases isBlank
      · exact induction further
  | modifier isModifier _ _ induction =>
      intro member
      rcases List.mem_append.mp member with inWord | further
      · exact not_mem_modifier_of_separator _ separates _ isModifier inWord
      · exact induction further

/-- A gap that the search for comments steps over holds no separator. -/
def Excludes (mark : Char) (transparent : List Char → Bool) : Prop :=
  ∀ gap, transparent gap = true → mark ∉ gap

theorem excludes_isModifierGap {mark : Char} (separates : mark ∈ entrySeparators) :
    Excludes mark isModifierGap := by
  intro gap isGap
  exact (isModifierGap_iff.mp isGap).not_mem separates

theorem excludes_isBlankGap {mark : Char} (separates : mark ∈ entrySeparators) :
    Excludes mark isBlankGap := by
  intro gap isGap member
  have isBlank := CommentIndex.isBlankGap_iff.mp isGap mark member
  rw [not_isBlank_of_separator mark separates] at isBlank
  cases isBlank

section Text

/-- A character is among those that start from its place on. -/
theorem mem_of_append_eq {front gap back before after : List Char} {mark : Char}
    (same : front ++ gap ++ back = before ++ mark :: after)
    (behind : String.utf8Len front ≤ String.utf8Len before)
    (inFront : String.utf8Len before < String.utf8Len (front ++ gap)) : mark ∈ gap := by
  rcases List.append_eq_append_iff.mp same with ⟨more, rfl, _⟩ | ⟨rest, isFront, isRest⟩
  · rw [String.utf8Len_append] at inFront
    omega
  · -- The mark starts inside `front ++ gap`, so it is the first character of the rest.
    cases rest with
    | nil =>
        rw [isFront, List.append_nil] at inFront
        omega
    | cons c rest =>
        rw [List.cons_append, List.cons.injEq] at isRest
        obtain ⟨rfl, _⟩ := isRest
        rcases List.append_eq_append_iff.mp isFront with ⟨inner, rfl, isGap⟩ | ⟨inner, rfl, isGap⟩
        · rw [isGap]
          simp
        · cases inner with
          | nil =>
              rw [List.nil_append] at isGap
              rw [← isGap]
              simp
          | cons other inner =>
              rw [String.utf8Len_append, String.utf8Len_cons] at behind
              have positive := other.utf8Size_pos
              omega

/-- A character that stands between two positions is in the text between them. -/
theorem SourceText.Between.mem {source : SourceText} {lo hi position : Nat} {gap : List Char}
    {mark : Char} (isBetween : source.Between lo hi gap)
    (stands : source.slice position (position + 1) = some [mark]) (behind : lo ≤ position)
    (inFront : position < hi) : mark ∈ gap := by
  obtain ⟨front, back, isText, isLo, isHi⟩ := isBetween
  obtain ⟨before, after, sameText, isPosition, _⟩ := SourceText.slice_eq_some_iff.mp stands
  rw [isText, List.append_assoc before, List.singleton_append] at sameText
  apply mem_of_append_eq sameText
  · omega
  · rw [String.utf8Len_append]
    omega

end Text

namespace CommentIndex

/-- The mark stands at the position, and in none of the comments. -/
structure BareAt (index : CommentIndex) (mark : Char) (position : Nat) : Prop where
  stands : index.source.slice position (position + 1) = some [mark]
  outside : ∀ comment ∈ index.comments, comment.span.contains position = false

/-- The search for comments does not get past a separator. -/
theorem lt_of_mem_runBefore {source : SourceText} {transparent : List Char → Bool}
    {boundary position : Nat} {comments : List Comment} {mark : Char}
    (separates : mark ∈ entrySeparators)
    (stands : source.slice position (position + 1) = some [mark])
    (outside : ∀ comment ∈ comments, comment.span.contains position = false)
    (excludes : Excludes mark transparent) (inFront : position < boundary) :
    ∀ comment ∈ runBefore source transparent boundary comments, position < comment.span.lo := by
  fun_induction runBefore source transparent boundary comments with
  | case1 => simp
  | case2 => simp
  | case3 transparent boundary comment comments gap cut isTransparent induction =>
      -- A comment that starts earlier is over at the separator, so the gap behind it holds it.
      have isBehind : position < comment.span.lo := by
        by_contra startsEarlier
        have isOutside := outside comment (by simp)
        rw [Bool.eq_false_iff, ne_eq, Span.contains_iff] at isOutside
        have isBetween := SourceText.slice_eq_some_iff.mp cut
        exact excludes gap isTransparent (isBetween.mem stands (by omega) inFront)
      have later := induction (fun other isOther => outside other (by simp [isOther]))
        (excludes_isBlankGap separates) isBehind
      exact List.forall_mem_cons.mpr ⟨isBehind, later⟩
  | case4 => simp

section Separator

variable {index : CommentIndex} {mark : Char} {separator position : Nat}

/-- The comments in front of a position start behind a separator that stands before it. -/
theorem BareAt.lt_of_mem_before (bare : index.BareAt mark separator)
    (separates : mark ∈ entrySeparators) (inFront : separator < position) :
    ∀ comment ∈ index.before position, separator < comment.span.lo := by
  intro comment member
  rw [before, List.mem_reverse] at member
  apply lt_of_mem_runBefore separates bare.stands _ (excludes_isModifierGap separates) inFront
    comment member
  intro other isOther
  exact bare.outside other (List.mem_of_mem_take (List.mem_reverse.mp isOther))

/-- The index with the comments that start behind the position. -/
def startingBehind (index : CommentIndex) (position : Nat) : CommentIndex :=
  { index with comments := index.comments.filter fun comment => position < comment.span.lo }

theorem Orderly.startingBehind (orderly : index.Orderly) (position : Nat) :
    (index.startingBehind position).Orderly := by
  constructor
  · exact orderly.apart.filter _
  · intro comment member
    exact orderly.forward comment (List.mem_of_mem_filter member)

/-- The comments that are over split at a position into those that start up to it and those that
start behind it. -/
theorem Orderly.exists_ended_eq_append (orderly : index.Orderly) (separator position : Nat) :
    ∃ early, index.ended position = early ++ (index.startingBehind separator).ended position ∧
      ∀ comment ∈ early, comment.span.lo ≤ separator := by
  have sorted : (index.ended position).Pairwise fun first second =>
      decide (second.span.lo ≤ separator) = true → decide (first.span.lo ≤ separator) = true := by
    rw [orderly.ended_eq_filter]
    apply (orderly.apart.filter _).imp_of_mem
    intro first second isFirst _ apart
    have forward := orderly.forward first (List.mem_of_mem_filter isFirst)
    simp only [decide_eq_true_eq]
    omega
  obtain ⟨early, late, split, areEarly, areLate⟩ := exists_passing_append_failing sorted
  simp only [decide_eq_true_eq, decide_eq_false_iff_not, Nat.not_le] at areEarly areLate
  refine ⟨early, ?_, areEarly⟩
  have noEarly : early.filter (fun comment => separator < comment.span.lo) = [] := by
    rw [List.filter_eq_nil_iff]
    intro comment isEarly
    simpa using areEarly comment isEarly
  have isLate : (index.startingBehind separator).ended position = late := by
    calc (index.startingBehind separator).ended position
        = (index.ended position).filter fun comment => separator < comment.span.lo := by
          rw [(orderly.startingBehind separator).ended_eq_filter, orderly.ended_eq_filter]
          exact List.filter_comm _ _ _
      _ = late := by
          rw [split, List.filter_append, noEarly, List.nil_append, List.filter_eq_self]
          simpa using areLate
  rw [isLate, split]

/-- A run without any of the early comments is a run of the late ones. -/
theorem suffix_of_forall_not_mem {early late run : List Comment} (isRun : run <:+ early ++ late)
    (noEarly : ∀ comment ∈ early, comment ∉ run) : run <:+ late := by
  rcases List.suffix_or_suffix_of_suffix isRun (List.suffix_append early late) with inLate | reaches
  · exact inLate
  · obtain ⟨more, rfl⟩ := reaches
    obtain ⟨front, isSplit⟩ := isRun
    rw [← List.append_assoc, List.append_cancel_right_eq] at isSplit
    cases more with
    | nil => exact List.suffix_rfl
    | cons comment more =>
        refine absurd ?_ (noEarly comment (by simp [← isSplit]))
        exact List.mem_append_left late (List.mem_cons_self ..)

/-- The comments up to a separator do not matter to what is in front of a position behind it. -/
theorem BareAt.before_startingBehind (bare : index.BareAt mark separator)
    (separates : mark ∈ entrySeparators) (orderly : index.Orderly)
    (inFront : separator < position) :
    (index.startingBehind separator).before position = index.before position := by
  obtain ⟨early, split, areEarly⟩ := orderly.exists_ended_eq_append separator position
  have isPart := before_suffix index position
  have isLatePart := before_suffix (index.startingBehind separator) position
  have isSuffix : (index.startingBehind separator).before position <:+ index.ended position := by
    rw [split]
    exact isLatePart.trans (List.suffix_append _ _)
  have inLate : index.before position <:+ (index.startingBehind separator).ended position := by
    rw [split] at isPart
    apply suffix_of_forall_not_mem isPart
    intro comment isEarly member
    have isBehind := bare.lt_of_mem_before separates inFront comment member
    exact absurd (areEarly comment isEarly) (Nat.not_le.mpr isBehind)
  -- Both runs are the longest ones, so each is a part of the other.
  have leads := (suffix_before_iff isPart).mp List.suffix_rfl
  have leadsLate := (suffix_before_iff isLatePart).mp List.suffix_rfl
  have forth := (suffix_before_iff isSuffix).mpr leadsLate
  have back := (suffix_before_iff inLate).mpr leads
  exact forth.eq_of_length_le back.length_le

end Separator

/-- The comments in front of an entry start behind its separator, and those that start earlier
neither belong to them nor document the entry. -/
structure Confined (index : CommentIndex) (separator : Nat) (entry : Node) : Prop where
  atStart : ∀ comment ∈ index.before entry.span.lo, separator < comment.span.lo
  atAnchor : ∀ comment ∈ index.before entry.docAnchor, separator < comment.span.lo
  documents : isDocumented index entry = true →
    ∃ comment ∈ index.comments, separator < comment.span.lo ∧ hasLeadingDoc [comment] = true
  unchanged : index.Orderly → ∀ position ∈ [entry.span.lo, entry.docAnchor],
    (index.startingBehind separator).before position = index.before position

end CommentIndex

theorem Node.docAnchor_le (entry : Node) : entry.docAnchor ≤ entry.span.lo := by
  unfold docAnchor
  split
  · exact Nat.min_le_left _ _
  · exact Nat.le_refl _

theorem CommentIndex.BareAt.confined {index : CommentIndex} {mark : Char} {separator : Nat}
    {entry : Node} (bare : index.BareAt mark separator) (separates : mark ∈ entrySeparators)
    (inFront : separator < entry.docAnchor) : index.Confined separator entry := by
  have further : separator < entry.span.lo := Nat.lt_of_lt_of_le inFront entry.docAnchor_le
  have atAnchor := bare.lt_of_mem_before separates inFront
  refine ⟨bare.lt_of_mem_before separates further, atAnchor, ?_, ?_⟩
  · intro documented
    obtain ⟨comment, member, isDoc⟩ := List.any_eq_true.mp documented
    refine ⟨comment, ?_, atAnchor comment member, ?_⟩
    · exact List.mem_of_mem_take ((before_suffix index entry.docAnchor).subset member)
    · rw [hasLeadingDoc, List.any_cons, isDoc, Bool.true_or]
  · intro orderly position isPosition
    apply bare.before_startingBehind separates orderly
    rcases List.mem_pair.mp isPosition with rfl | rfl
    · exact further
    · exact inFront

namespace ParsedSource

/-- The text in which comments are looked up is the one that positions refer to. -/
def Aligned (parsed : ParsedSource) : Prop := parsed.source.text = parsed.text

/-- A file is aligned just if it has no byte order mark. -/
theorem aligned_iff_of_parse {path code : String} {parsed : ParsedSource}
    (isParsed : parse path code = some parsed) :
    parsed.Aligned ↔ code.toList.head? ≠ some '\ufeff' := by
  obtain ⟨module_, _, isResult⟩ := Option.bind_eq_some_iff.mp isParsed
  cases isResult
  have isAligned : code = String.ofList (withoutMark code) ↔ code.toList = withoutMark code := by
    rw [← String.toList_inj, String.toList_ofList]
  refine isAligned.trans ?_
  unfold withoutMark
  split
  next chars isMarked => simp [isMarked]
  next chars unmarked =>
    refine ⟨fun _ isMark => ?_, fun _ => rfl⟩
    obtain ⟨rest, isRest⟩ := List.head?_eq_some_iff.mp isMark
    exact unmarked rest isRest

/-- The mark stands at the position of the text, and in none of the comments. -/
structure MarkAt (parsed : ParsedSource) (mark : Char) (position : Nat) : Prop where
  stands : SourceText.slice ⟨parsed.source.start, parsed.text⟩ position (position + 1) =
    some [mark]
  outside : ∀ comment ∈ parsed.comments, comment.span.contains position = false

/-- The positions are those of the separators in front of the entries.  The first of them is the
given mark, which stands at `start` or behind it, and the others are commas, each behind the entry
that comes before. -/
inductive Separated (parsed : ParsedSource) :
    (mark : Char) → (start : Nat) → List Node → List Nat → Prop where
  | nil {mark : Char} {start : Nat} : Separated parsed mark start [] []
  | cons {mark : Char} {start separator : Nat} {entry : Node} {entries : List Node}
      {separators : List Nat} (isMark : parsed.MarkAt mark separator)
      (behind : start ≤ separator) (inFront : separator < entry.docAnchor)
      (forward : entry.docAnchor ≤ entry.span.hi)
      (further : Separated parsed ',' entry.span.hi entries separators) :
      Separated parsed mark start (entry :: entries) (separator :: separators)

/-- What the parser promises: the entries of each object literal have their separators. -/
def Delimited (parsed : ParsedSource) : Prop :=
  ∀ span entries, .objectLiteral span entries ∈ Node.nodesOf .whole parsed.items →
    ∃ separators, parsed.Separated '\x7b' span.lo entries separators

section Entries

variable {parsed : ParsedSource} {mark : Char} {start : Nat} {entries : List Node}
  {separators : List Nat}

theorem MarkAt.bareAt {position : Nat} (isMark : parsed.MarkAt mark position)
    (aligned : parsed.Aligned) : parsed.commentIndex.BareAt mark position := by
  refine ⟨?_, isMark.outside⟩
  have stands := isMark.stands
  rwa [← aligned] at stands

theorem Separated.confined (separated : parsed.Separated mark start entries separators)
    (aligned : parsed.Aligned) (separates : mark ∈ entrySeparators) :
    List.Forall₂ (fun entry separator => parsed.commentIndex.Confined separator entry) entries
      separators := by
  induction separated with
  | nil => exact .nil
  | cons isMark _ inFront _ _ induction =>
      refine .cons ?_ (induction (by decide))
      exact (isMark.bareAt aligned).confined separates inFront

theorem Separated.exists_confined (separated : parsed.Separated mark start entries separators)
    (aligned : parsed.Aligned) (separates : mark ∈ entrySeparators) :
    ∀ entry ∈ entries, ∃ separator, start ≤ separator ∧
      parsed.commentIndex.Confined separator entry := by
  induction separated with
  | nil => simp
  | cons isMark behind inFront forward _ induction =>
      refine List.forall_mem_cons.mpr ⟨⟨_, behind, ?_⟩, ?_⟩
      · exact (isMark.bareAt aligned).confined separates inFront
      · intro entry member
        obtain ⟨separator, isBehind, confined⟩ := induction (by decide) entry member
        exact ⟨separator, by omega, confined⟩

theorem Separated.pairwise (separated : parsed.Separated mark start entries separators)
    (aligned : parsed.Aligned) :
    entries.Pairwise fun earlier later => ∀ comment, comment.span.lo ≤ earlier.span.hi →
      comment ∉ parsed.commentIndex.before later.span.lo ∧
        comment ∉ parsed.commentIndex.before later.docAnchor := by
  induction separated with
  | nil => exact List.Pairwise.nil
  | cons _ _ _ _ further induction =>
      refine List.pairwise_cons.mpr ⟨?_, induction⟩
      intro later isLater comment startsEarlier
      obtain ⟨separator, behind, confined⟩ :=
        further.exists_confined aligned (by decide) later isLater
      constructor
      · intro member
        have isBehind := confined.atStart comment member
        omega
      · intro member
        have isBehind := confined.atAnchor comment member
        omega

end Entries

/-- In a file without a byte order mark, the comments in front of an entry of an object literal, and
those that the documentation of the entry is looked for in, start behind the separator of the entry.
So no comment in front of an earlier entry or inside of it leads a later entry. -/
theorem confined_of_delimited {parsed : ParsedSource} (aligned : parsed.Aligned)
    (delimited : parsed.Delimited) {span : Span} {entries : List Node}
    (isLiteral : .objectLiteral span entries ∈ Node.nodesOf .whole parsed.items) :
    ∃ separators, parsed.Separated '\x7b' span.lo entries separators ∧
      List.Forall₂ (fun entry separator => parsed.commentIndex.Confined separator entry) entries
        separators ∧
      entries.Pairwise fun earlier later => ∀ comment, comment.span.lo ≤ earlier.span.hi →
        comment ∉ parsed.commentIndex.before later.span.lo ∧
          comment ∉ parsed.commentIndex.before later.docAnchor := by
  obtain ⟨separators, separated⟩ := delimited span entries isLiteral
  refine ⟨separators, separated, ?_, separated.pairwise aligned⟩
  exact separated.confined aligned (by decide)

end ParsedSource

/-- The first entry of `x = { /** d */ a: [ /** e */ ], async b() {} }`. -/
def documentedArray : Node :=
  .keyValue (.plainKey ⟨16, 17⟩ (.identifier "a")) (.arrayLiteral ⟨19, 31⟩ [])

/-- The second entry of `x = { /** d */ a: [ /** e */ ], async b() {} }`. -/
def undocumentedMethod : Node :=
  .methodEntry (.plainKey ⟨39, 40⟩ (.identifier "b"))
    (.functionLike ⟨33, 45⟩ .ordinary none [] [] [])

/-- The file `x = { /** d */ a: [ /** e */ ], async b() {} }` after parsing. -/
def arrayAndMethod : ParsedSource :=
  { span := ⟨1, 47⟩
    items := [.assignment ⟨1, 47⟩ (.identifier ⟨"x", ⟨1, 2⟩⟩)
      (.objectLiteral ⟨5, 47⟩ [documentedArray, undocumentedMethod])]
    comments := [⟨.block, "* d ", ⟨7, 15⟩⟩, ⟨.block, "* e ", ⟨21, 29⟩⟩]
    source := ⟨1, "x = \x7b /** d */ a: [ /** e */ ], async b() \x7b\x7d \x7d"⟩
    text := "x = \x7b /** d */ a: [ /** e */ ], async b() \x7b\x7d \x7d" }

theorem ParsedSource.separated_arrayAndMethod :
    arrayAndMethod.Separated '\x7b' 5 [documentedArray, undocumentedMethod] [5, 31] := by
  refine .cons ⟨by decide, by decide⟩ ?_ ?_ ?_ (.cons ⟨by decide, by decide⟩ ?_ ?_ ?_ .nil)
  all_goals decide

/-- Neither the documentation of the first entry nor the comment inside of it documents the second
entry. -/
theorem ParsedSource.confined_of_delimited_arrayAndMethod :
    arrayAndMethod.Aligned ∧ arrayAndMethod.Delimited ∧
      isDocumented arrayAndMethod.commentIndex documentedArray = true ∧
      isDocumented arrayAndMethod.commentIndex undocumentedMethod = false ∧
      ∀ comment ∈ arrayAndMethod.comments,
        comment ∉ arrayAndMethod.commentIndex.before undocumentedMethod.docAnchor := by
  have aligned : arrayAndMethod.Aligned := rfl
  have delimited : arrayAndMethod.Delimited := by
    intro span entries isLiteral
    have isOnly : span = ⟨5, 47⟩ ∧ entries = [documentedArray, undocumentedMethod] := by
      simpa [arrayAndMethod, Node.nodesOf, Node.walkList, Node.walk, Node.entering,
        documentedArray, undocumentedMethod] using isLiteral
    obtain ⟨rfl, rfl⟩ := isOnly
    exact ⟨[5, 31], separated_arrayAndMethod⟩
  have isLiteral : .objectLiteral ⟨5, 47⟩ [documentedArray, undocumentedMethod] ∈
      Node.nodesOf .whole arrayAndMethod.items := by
    simp [arrayAndMethod, Node.nodesOf, Node.walkList, Node.walk, Node.entering]
  obtain ⟨_, _, _, apart⟩ := confined_of_delimited aligned delimited isLiteral
  refine ⟨aligned, delimited, by decide, by decide, ?_⟩
  intro comment member
  have startsEarlier : comment.span.lo ≤ documentedArray.span.hi := by
    revert comment
    decide
  exact (List.rel_of_pairwise_cons apart (by simp) comment startsEarlier).2

end StoreLint
