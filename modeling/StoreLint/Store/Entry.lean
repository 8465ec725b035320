import StoreLint.Tree.Node

/-!
# Entries of object literals

An entry is known by the name of its key, if the spelling of the key fixes one.
Spreads have neither a key nor a name.
-/

namespace StoreLint.Node

/-- The name that a key stands for; computed keys have none. -/
def keyName? : Node → Option String
  | .plainKey _ text => text.name?
  | _ => none

def entryName? : Node → Option String
  | .shorthand id => some id.name
  | .initialized _ id _ => some id.name
  | .keyValue key _ => key.keyName?
  | .getter _ key _ _ => key.keyName?
  | .setter _ key _ _ _ => key.keyName?
  | .methodEntry key _ => key.keyName?
  | _ => none

def entryKeySpan? : Node → Option Span
  | .shorthand id => some id.span
  | .initialized _ id _ => some id.span
  | .keyValue key _ => some key.span
  | .getter _ key _ _ => some key.span
  | .setter _ key _ _ _ => some key.span
  | .methodEntry key _ => some key.span
  | _ => none

/-- Whether an entry copies the entries of another object. -/
def isSpread : Node → Bool
  | .spread _ _ => true
  | _ => false

def properEntries (entries : List Node) : List Node := entries.filter fun entry => !entry.isSpread

/-- The position in front of which the documentation of an entry stands. -/
def docAnchor (entry : Node) : Nat :=
  match entry.entryKeySpan? with
  | some key => min entry.span.lo key.lo
  | none => entry.span.lo

end StoreLint.Node
