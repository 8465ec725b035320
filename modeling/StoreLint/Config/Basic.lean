import StoreLint.Glob.Pattern
import StoreLint.Json.Value
import StoreLint.Rule.RequireDoc

/-!
# Configuration

What a project can set: which directories are checked, which files are left out, and
which sections need documentation.
-/

namespace StoreLint

/-- The name of the configuration file of a project. -/
def configFileName : String := ".vuexlintrc.json"

/-- The patterns of files that are left out unless the project says otherwise. -/
def defaultIgnores : List String := ["**/node_modules/**", "**/dist/**"]

def testFilePatterns : List String :=
  ["**/*.test.js", "**/*.test.ts", "**/*.test.jsx", "**/*.test.tsx", "**/*.spec.js",
   "**/*.spec.ts", "**/*.spec.jsx", "**/*.spec.tsx", "**/__tests__/**"]

/-- The configuration of a project. -/
structure Config where
  /-- The directories to check, or patterns of them; none means the whole project. -/
  includes : List String := []
  ignores : List String := defaultIgnores
  ignoreTestFiles : Bool := true
  /-- The sections whose entries need documentation. -/
  sections : DocSections := {}
deriving DecidableEq, Repr, Inhabited

/-- The lists of a configuration that hold patterns. -/
inductive PatternField where
  | ignores
  | includes
deriving DecidableEq, Repr, Inhabited

/-- The name of a list in the configuration file. -/
def PatternField.name : PatternField → String
  | .ignores => "ignores"
  | .includes => "includes"

/-- A text in a configuration that should be a pattern and is none. -/
structure InvalidPattern where
  field : PatternField
  pattern : String
  error : Glob.PatternError
deriving DecidableEq, Repr, Inhabited

def InvalidPattern.summary (invalid : InvalidPattern) : String :=
  s!"Invalid glob pattern in '{invalid.field.name}': \"" ++ invalid.pattern ++ "\""

def InvalidPattern.message (invalid : InvalidPattern) : String :=
  invalid.summary ++ ": " ++ invalid.error.message

/-- The first of the texts that is no pattern. -/
def firstInvalid (field : PatternField) : List String → Option InvalidPattern
  | [] => none
  | pattern :: patterns =>
      match Glob.parse pattern with
      | .ok _ => firstInvalid field patterns
      | .error error => some ⟨field, pattern, error⟩

namespace Config

/-- The first invalid pattern of a configuration.  An include without wildcards is a plain path
and need not be a pattern. -/
def invalid? (config : Config) : Option InvalidPattern :=
  match firstInvalid .ignores config.ignores with
  | some invalid => some invalid
  | none => firstInvalid .includes (config.includes.filter Glob.hasWildcard)

def textsJson (texts : List String) : Json := .array (texts.map Json.string)

def sectionsJson (sections : DocSections) : Json :=
  .object [("VueProps", .boolean sections.props), ("VuexActions", .boolean sections.actions),
    ("VuexState", .boolean sections.state)]

def toJson (config : Config) : Json :=
  .object [("includes", textsJson config.includes), ("ignores", textsJson config.ignores),
    ("ignoreTestFiles", .boolean config.ignoreTestFiles),
    ("requireJsdoc", .object [("require", sectionsJson config.sections)])]

end Config

end StoreLint
