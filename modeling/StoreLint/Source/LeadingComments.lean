import StoreLint.Source.Comment
import StoreLint.Source.Text
import StoreLint.Text.Blank

/-!
# Comments in front of a position

A comment stands in front of a position when nothing but white space and other such
comments lies between them; in the last gap there may also be the words that come
before the name of a method.
-/

namespace StoreLint

/-- The words that may stand between the comment of an entry and its name. -/
def modifierWords : List (List Char) :=
  ["async", "get", "set", "static", "*"].map String.toList

/-- Whether a gap holds only modifiers. -/
def isModifierGap (gap : List Char) : Bool :=
  (Blank.words gap).all fun word => modifierWords.contains word

/-- Whether a gap is empty but for white space. -/
def isBlankGap (gap : List Char) : Bool := gap.all Blank.isBlank

/-- Where a search by halves arrives that starts with `size` items from the index `base` on: it
goes on with the second half whenever the first item there passes the test. -/
def bisectFrom (test : Nat → Bool) : (steps base size : Nat) → Nat
  | 0, base, _ => base
  | steps + 1, base, size =>
      if size ≤ 1 then base
      else
        let middle := base + size / 2
        bisectFrom test steps (if test middle then middle else base) (size - size / 2)

/-- How many items there are in front of those that fail the test.  The items that pass it are
expected to come first. -/
def bisect {α : Type} (items : List α) (test : α → Bool) : Nat :=
  let passes (index : Nat) : Bool := items[index]?.any test
  let last := bisectFrom passes items.length 0 items.length
  if passes last then last + 1 else last

theorem bisect_map {α β : Type} (items : List α) (change : α → β) (test : β → Bool) :
    bisect (items.map change) test = bisect items (test ∘ change) := by
  have passes (index : Nat) :
      (items.map change)[index]?.any test = items[index]?.any (test ∘ change) := by
    rw [List.getElem?_map, Option.any_map]
    rfl
  simp only [bisect, passes, List.length_map]

/-- The comments of a file by position, and the text they stand in. -/
structure CommentIndex where
  comments : List Comment
  source : SourceText
deriving Repr, Inhabited

namespace CommentIndex

/-- The run of comments that reaches up to `boundary` over gaps that `transparent` accepts, and
over blank gaps after the first.  The comments are given, and the run is listed, last first. -/
def runBefore (source : SourceText) (transparent : List Char → Bool) (boundary : Nat) :
    List Comment → List Comment
  | [] => []
  | comment :: comments =>
      match source.slice comment.span.hi boundary with
      | none => []
      | some gap =>
          if transparent gap then
            comment :: runBefore source isBlankGap comment.span.lo comments
          else []

/-- The comments up to the last one that ends at or before a position. -/
def ended (index : CommentIndex) (position : Nat) : List Comment :=
  index.comments.take (bisect index.comments fun comment => comment.span.hi ≤ position)

/-- The comments directly in front of a position, in the order of the source. -/
def before (index : CommentIndex) (position : Nat) : List Comment :=
  (runBefore index.source isModifierGap position (index.ended position).reverse).reverse

end CommentIndex

/-- Whether one of the comments documents what follows it: a block comment that starts with a
star and has more text than that star. -/
def hasLeadingDoc (comments : List Comment) : Bool :=
  comments.any fun comment =>
    comment.kind == .block &&
      match Blank.trim comment.text.toList with
      | '*' :: _ :: _ => true
      | _ => false

end StoreLint
