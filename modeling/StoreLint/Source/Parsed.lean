import StoreLint.Grammar.Module
import StoreLint.Project.Path
import StoreLint.Source.LeadingComments
import StoreLint.Source.Place

/-!
# Parsed files

The extension of a file decides the dialect it is written in.  A byte order mark in
front of the text is no part of what is parsed, so positions count from the character
after it; the text in which comments are looked up keeps the mark.
-/

namespace StoreLint

/-- The dialect of a file, by the extension of its path. -/
def Grammar.Dialect.ofPath (path : String) : Grammar.Dialect :=
  match Path.extension? path with
  | some "ts" | some "mts" | some "cts" => { typed := true, markup := false }
  | some "tsx" => { typed := true, markup := true }
  | _ => { typed := false, markup := true }

/-- A file that has been parsed. -/
structure ParsedSource where
  /-- The extent of the module. -/
  span : Span
  items : List Node
  comments : List Comment
  source : SourceText
  /-- The text that positions refer to. -/
  text : String
deriving Inhabited

namespace ParsedSource

/-- The position of the first character of a file. -/
def firstPosition : Nat := 1

/-- The text without a byte order mark in front. -/
def withoutMark (code : String) : List Char :=
  match code.toList with
  | '\ufeff' :: chars => chars
  | chars => chars

/-- Parses the text of a file; nothing if it is no module of the file's dialect. -/
def parse (path code : String) : Option ParsedSource := do
  let chars := withoutMark code
  let parsed ← Grammar.parseModule (.ofPath path) firstPosition chars
  return {
    span := ⟨firstPosition, firstPosition + Grammar.byteLength chars⟩
    items := parsed.items
    comments := parsed.comments
    source := ⟨firstPosition, code⟩
    text := String.ofList chars }

/-- The comments of the file with the text they stand in. -/
def commentIndex (parsed : ParsedSource) : CommentIndex :=
  { comments := parsed.comments, source := parsed.source }

def place (parsed : ParsedSource) (position : Nat) : Place :=
  Place.ofOffset parsed.text (position - parsed.source.start)

end ParsedSource

end StoreLint
