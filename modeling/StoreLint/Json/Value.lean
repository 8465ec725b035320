/-!
# JSON values

The values that are written as JSON: texts, truth values, lists and objects whose
members keep their order.  A document is written with two spaces for each level, and
an empty list or object on one line.
-/

namespace StoreLint

/-- A JSON value without numbers. -/
inductive Json where
  | null
  | boolean (value : Bool)
  | string (value : String)
  | array (elements : List Json)
  | object (members : List (String × Json))
deriving Repr, Inhabited

namespace Json

def encodeChar (c : Char) : List Char :=
  if c == '"' then ['\\', '"']
  else if c == '\\' then ['\\', '\\']
  else if c == '\x08' then ['\\', 'b']
  else if c == '\x0c' then ['\\', 'f']
  else if c == '\n' then ['\\', 'n']
  else if c == '\r' then ['\\', 'r']
  else if c == '\t' then ['\\', 't']
  else if c.toNat < 0x20 then
    let digits := Nat.toDigits 16 c.toNat
    ['\\', 'u'] ++ List.replicate (4 - digits.length) '0' ++ digits
  else [c]

/-- A text as a JSON string. -/
def encodeString (value : String) : String :=
  String.ofList ('"' :: value.toList.flatMap encodeChar ++ ['"'])

/-- A line end and the indentation of a level. -/
def newline (level : Nat) : String := "\n" ++ String.ofList (List.replicate (2 * level) ' ')

mutual

/-- The document of a value that stands at the given level. -/
def write (level : Nat) : Json → String
  | .null => "null"
  | .boolean value => if value then "true" else "false"
  | .string value => encodeString value
  | .array [] => "[]"
  | .array (element :: elements) =>
      "[" ++ newline (level + 1) ++ element.write (level + 1) ++
        writeElements (level + 1) elements ++ newline level ++ "]"
  | .object [] => "\x7b\x7d"
  | .object ((name, value) :: members) =>
      "\x7b" ++ newline (level + 1) ++ encodeString name ++ ": " ++ value.write (level + 1) ++
        writeMembers (level + 1) members ++ newline level ++ "\x7d"

/-- The elements after the first one, each on a line of its own. -/
def writeElements (level : Nat) : List Json → String
  | [] => ""
  | element :: elements =>
      "," ++ newline level ++ element.write level ++ writeElements level elements

/-- The members after the first one, each on a line of its own. -/
def writeMembers (level : Nat) : List (String × Json) → String
  | [] => ""
  | (name, value) :: members =>
      "," ++ newline level ++ encodeString name ++ ": " ++ value.write level ++
        writeMembers level members

end

/-- The document of a value. -/
def pretty (value : Json) : String := value.write 0

end Json

end StoreLint
