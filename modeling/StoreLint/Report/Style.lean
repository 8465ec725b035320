/-!
# Styled text

Texts on a terminal may be bold, dimmed and coloured.  A style is written as one
escape sequence in front of the text and one behind it; padding belongs to the text.
-/

namespace StoreLint

/-- The colours of reports. -/
inductive Color where
  | red
  | green
  | yellow
  | blue
  | cyan
deriving DecidableEq, Repr, Inhabited

def Color.code : Color → String
  | .red => "31"
  | .green => "32"
  | .yellow => "33"
  | .blue => "34"
  | .cyan => "36"

/-- How a text is shown. -/
structure Style where
  bold : Bool := false
  dimmed : Bool := false
  color : Option Color := none
deriving DecidableEq, Repr, Inhabited

namespace Style

/-- The codes of a style: first the weight, then the colour. -/
def codes (style : Style) : List String :=
  (if style.bold then ["1"] else []) ++ (if style.dimmed then ["2"] else []) ++
    (style.color.map Color.code).toList

/-- A text in a style, or the plain text where styles are off. -/
def apply (style : Style) (enabled : Bool) (text : String) : String :=
  if enabled then "\x1b[" ++ String.intercalate ";" style.codes ++ "m" ++ text ++ "\x1b[0m"
  else text

def colored (color : Color) : Style := { color := some color }

def warningLabel : Style := { bold := true, color := some .yellow }

end Style

def spaces (count : Nat) : String := String.ofList (List.replicate count ' ')

/-- A text with spaces in front up to the given number of characters. -/
def alignRight (width : Nat) (text : String) : String := spaces (width - text.length) ++ text

end StoreLint
