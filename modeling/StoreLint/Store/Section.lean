import StoreLint.Store.Entry

/-!
# Stores and components

An object literal is taken for the definition of a store or of a component by the
names of its entries alone.  A store has at least two entries and only names of the
store vocabulary; a component has at least two names of its vocabulary and may have
any others.  The literal `{ state, getters }` looks like a store and like the context
that a store hands out, and is never taken for a store.
-/

namespace StoreLint

/-- The names of the parts of a store. -/
def storeKeys : List String :=
  ["state", "actions", "mutations", "getters", "namespaced", "modules"]

def componentKeys : List String :=
  ["props", "data", "components", "computed", "methods", "watch"]

/-- How many names of a vocabulary a definition has at least. -/
def minMatchingKeys : Nat := 2

/-- Whether an entry has a name of the vocabulary. -/
def isNamedIn (vocabulary : List String) : Option String → Bool
  | some name => vocabulary.contains name
  | none => false

/-- Whether the names are those of a store and of a context alike. -/
def isAmbiguous (keys : List (Option String)) : Bool :=
  keys == [some "state", some "getters"] || keys == [some "getters", some "state"]

/-- How many of the names are in the vocabulary; a repeated name counts each time. -/
def countMatching (vocabulary : List String) (keys : List (Option String)) : Nat :=
  (keys.filter (isNamedIn vocabulary)).length

/-- Whether an object literal with these names is a store. -/
def isStore (keys : List (Option String)) : Bool :=
  !isAmbiguous keys && keys.all (isNamedIn storeKeys) &&
    minMatchingKeys ≤ countMatching storeKeys keys

/-- Whether an object literal with these names is a component. -/
def isComponent (keys : List (Option String)) : Bool :=
  minMatchingKeys ≤ countMatching componentKeys keys

/-- An entry of an object literal together with all entries of the literal. -/
structure PlacedEntry where
  entry : Node
  siblings : List Node
deriving Inhabited

namespace PlacedEntry

def siblingKeys (placed : PlacedEntry) : List (Option String) :=
  placed.siblings.map Node.entryName?

def inStore (placed : PlacedEntry) : Bool := isStore placed.siblingKeys

def inComponent (placed : PlacedEntry) : Bool := isComponent placed.siblingKeys

/-- Whether the entry holds the actions of a store. -/
def isActions (placed : PlacedEntry) : Bool :=
  placed.entry.entryName? == some "actions" && placed.inStore

/-- Whether the entry holds the state of a store. -/
def isState (placed : PlacedEntry) : Bool :=
  placed.entry.entryName? == some "state" && placed.inStore

/-- Whether the entry holds the getters of a store. -/
def isGetters (placed : PlacedEntry) : Bool :=
  placed.entry.entryName? == some "getters" && placed.inStore

/-- Whether the entry holds the props of a component. -/
def isProps (placed : PlacedEntry) : Bool :=
  placed.entry.entryName? == some "props" && placed.inComponent

end PlacedEntry

/-- The entries of an object literal that have a key, each with its siblings. -/
def Node.placedEntries (entries : List Node) : List PlacedEntry :=
  (Node.properEntries entries).map fun entry => ⟨entry, entries⟩

end StoreLint
