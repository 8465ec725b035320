import StoreLint.Text.Blank
import StoreLint.Text.Letter

/-!
# Message templates

A template holds placeholders: a word between two pairs of braces, with white space
around it or not.  Filling a template replaces each placeholder by the value of the
first entry with that name, leaves a placeholder without an entry as it is written,
and changes nothing else; values are not filled again.
-/

namespace StoreLint.Template

/-- Values by name. -/
abbrev Values := List (String × String)

/-- A placeholder: the name in it and the number of its characters. -/
structure Placeholder where
  name : List Char
  length : Nat
deriving DecidableEq, Repr, Inhabited

/-- The placeholder that a text starts with, if it starts with one. -/
def placeholder? (chars : List Char) : Option Placeholder :=
  match chars with
  | '\x7b' :: '\x7b' :: inner =>
      let word := inner.dropWhile Blank.isBlank
      let name := word.takeWhile Letter.isWordChar
      let after := (word.dropWhile Letter.isWordChar).dropWhile Blank.isBlank
      match name, after with
      | _ :: _, '\x7d' :: '\x7d' :: rest => some ⟨name, chars.length - rest.length⟩
      | _, _ => none
  | _ => none

/-- The value of the first entry with the name. -/
def value? (values : Values) (name : String) : Option String :=
  (values.find? fun entry => entry.1 == name).map Prod.snd

/-- Fills a text of which the first `skipped` characters are dropped. -/
def fillFrom (values : Values) : (skipped : Nat) → List Char → List Char
  | _, [] => []
  | skipped + 1, _ :: chars => fillFrom values skipped chars
  | 0, c :: chars =>
      match placeholder? (c :: chars) with
      | none => c :: fillFrom values 0 chars
      | some found =>
          let text :=
            match value? values (String.ofList found.name) with
            | some value => value.toList
            | none => (c :: chars).take found.length
          text ++ fillFrom values (found.length - 1) chars

/-- The template with its placeholders filled. -/
def fill (template : String) (values : Values) : String :=
  String.ofList (fillFrom values 0 template.toList)

end StoreLint.Template
