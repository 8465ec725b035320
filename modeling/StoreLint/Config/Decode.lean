import StoreLint.Config.Basic
import StoreLint.Json.Reading
import StoreLint.Text.Decimal
import StoreLint.Text.Quoted

/-!
# Reading a configuration

A configuration is a JSON object whose members may be missing; a missing member has
its default value.  Members that the configuration does not know are skipped at the
top level and refused in the parts below.  A list stands for an object with its first
elements as the members in their order.

The text is judged from its beginning on: the first wrong value or malformed place
decides.
-/

namespace StoreLint

/-- Why a text is no configuration. -/
inductive ConfigError where
  /-- The text is no JSON document. -/
  | malformed
  /-- A value is not of the kind that is expected. -/
  | wrongType (found expected : String)
  | duplicateField (name : String)
  | unknownField (name expected : String)
deriving DecidableEq, Repr, Inhabited

def ConfigError.message : ConfigError → String
  | .malformed => "malformed JSON"
  | .wrongType found expected => s!"invalid type: {found}, expected {expected}"
  | .duplicateField name => s!"duplicate field `{name}`"
  | .unknownField name expected => s!"unknown field `{name}`, expected {expected}"

/-- What a value is called in an error message; a text that is malformed there is called
nothing. -/
def Reading.kind? : Reading → Option String
  | .null => some "null"
  | .boolean value => some (if value then "boolean `true`" else "boolean `false`")
  | .integer value => some s!"integer `{value}`"
  | .float value => some s!"floating point `{Decimal.text value}`"
  | .string (some value) => some s!"string {Quoted.text value}"
  | .sequence _ _ => some "sequence"
  | .map _ _ => some "map"
  | .hugeNumber | .string none | .broken => none

namespace Decode

/-- The error for a value that is not what is expected. -/
def mismatch (reading : Reading) (expected : String) : ConfigError :=
  match reading.kind? with
  | some found => .wrongType found expected
  | none => .malformed

/-- The value, unless the text is malformed after it. -/
def ifClosed {α : Type} (closed : Bool) (value : α) : Except ConfigError α :=
  if closed then .ok value else .error .malformed

def boolean : Reading → Except ConfigError Bool
  | .boolean value => .ok value
  | reading => .error (mismatch reading "a boolean")

def string : Reading → Except ConfigError String
  | .string (some value) => .ok value
  | reading => .error (mismatch reading "a string")

def strings : Reading → Except ConfigError (List String)
  | .sequence elements closed => do
      let values ← elements.mapM string
      ifClosed closed values
  | reading => .error (mismatch reading "a sequence")

/-- The value of a member that has not been read before. -/
def fresh {α : Type} (name : String) (read : Option α) (decode : Reading → Except ConfigError α)
    (reading : Reading) : Except ConfigError (Option α) :=
  match read with
  | some _ => .error (.duplicateField name)
  | none => do
      let value ← decode reading
      return some value

/-- The element that stands for a member, or the default if the list is shorter. -/
def element {α : Type} (elements : List Reading) (index : Nat) (default : α)
    (decode : Reading → Except ConfigError α) : Except ConfigError α :=
  match elements[index]? with
  | some reading => decode reading
  | none => .ok default

/-- The members of a choice of sections that have been read so far. -/
structure PartialSections where
  props : Option Bool := none
  actions : Option Bool := none
  state : Option Bool := none

def sectionsMember (read : PartialSections) (member : Option String × Reading) :
    Except ConfigError PartialSections :=
  match member.1 with
  | none => .error .malformed
  | some "VueProps" => do
      let props ← fresh "VueProps" read.props boolean member.2
      return { read with props }
  | some "VuexActions" | some "VuexAction" => do
      let actions ← fresh "VuexActions" read.actions boolean member.2
      return { read with actions }
  | some "VuexState" => do
      let state ← fresh "VuexState" read.state boolean member.2
      return { read with state }
  | some name =>
      .error (.unknownField name
        "one of `VueProps`, `VuexAction`, `VuexActions`, `VuexState`")

def sections : Reading → Except ConfigError DocSections
  | .map members closed => do
      let read ← members.foldlM sectionsMember {}
      ifClosed closed
        { props := read.props.getD true
          actions := read.actions.getD false
          state := read.state.getD false }
  | .sequence elements closed => do
      let props ← element elements 0 true boolean
      let actions ← element elements 1 false boolean
      let state ← element elements 2 false boolean
      ifClosed (closed && elements.length ≤ 3) { props, actions, state }
  | reading => .error (mismatch reading "struct RequireSections")

/-- Reads one member of the documentation options. -/
def optionsMember (read : Option DocSections) (member : Option String × Reading) :
    Except ConfigError (Option DocSections) :=
  match member.1 with
  | none => .error .malformed
  | some "require" => fresh "require" read sections member.2
  | some name => .error (.unknownField name "`require`")

def options : Reading → Except ConfigError DocSections
  | .map members closed => do
      let read ← members.foldlM optionsMember none
      ifClosed closed (read.getD {})
  | .sequence elements closed => do
      let value ← element elements 0 {} sections
      ifClosed (closed && elements.length ≤ 1) value
  | reading => .error (mismatch reading "struct RequireJsdocOptions")

/-- The members of a configuration that have been read so far. -/
structure PartialConfig where
  includes : Option (List String) := none
  ignores : Option (List String) := none
  ignoreTestFiles : Option Bool := none
  sections : Option DocSections := none

def configMember (read : PartialConfig) (member : Option String × Reading) :
    Except ConfigError PartialConfig :=
  match member.1 with
  | none => .error .malformed
  | some "includes" => do
      let includes ← fresh "includes" read.includes strings member.2
      return { read with includes }
  | some "ignores" => do
      let ignores ← fresh "ignores" read.ignores strings member.2
      return { read with ignores }
  | some "ignoreTestFiles" => do
      let ignoreTestFiles ← fresh "ignoreTestFiles" read.ignoreTestFiles boolean member.2
      return { read with ignoreTestFiles }
  | some "requireJsdoc" => do
      let sections ← fresh "requireJsdoc" read.sections options member.2
      return { read with sections }
  | some _ => if member.2.isComplete then .ok read else .error .malformed

def config : Reading → Except ConfigError Config
  | .map members closed => do
      let read ← members.foldlM configMember {}
      ifClosed closed
        { includes := read.includes.getD []
          ignores := read.ignores.getD defaultIgnores
          ignoreTestFiles := read.ignoreTestFiles.getD true
          sections := read.sections.getD {} }
  | .sequence elements closed => do
      let includes ← element elements 0 [] strings
      let ignores ← element elements 1 defaultIgnores strings
      let ignoreTestFiles ← element elements 2 true boolean
      let sections ← element elements 3 {} options
      ifClosed (closed && elements.length ≤ 4) { includes, ignores, ignoreTestFiles, sections }
  | reading => .error (mismatch reading "struct Config")

end Decode

/-- Reads a configuration from the text of its file. -/
def Config.parse (text : String) : Except ConfigError Config := do
  let (reading, isWhole) := Reading.document text
  let config ← Decode.config reading
  Decode.ifClosed isWhole config

end StoreLint
