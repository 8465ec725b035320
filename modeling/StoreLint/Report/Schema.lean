import StoreLint.Config.Basic

/-!
# Rules as JSON

The list of rules as a JSON document, with the JSON schema of the options that each
rule takes.
-/

namespace StoreLint

/-- The version of the language that schemas are written in. -/
def schemaDialect : Json := .string "https://json-schema.org/draft/2020-12/schema"

/-- The schema of a truth value with a default. -/
def booleanSchema (default : Bool) : Json :=
  .object [("type", .string "boolean"), ("default", .boolean default)]

def sectionsSchema : Json :=
  let defaults : DocSections := {}
  .object [
    ("type", .string "object"),
    ("additionalProperties", .boolean false),
    ("properties", .object [
      ("VueProps", booleanSchema defaults.props),
      ("VuexActions", booleanSchema defaults.actions),
      ("VuexState", booleanSchema defaults.state)]),
    ("description", .string "Sections whose entries need a doc comment.")]

def Rule.optionsSchema : Rule → Json
  | .requireDoc =>
      .object [
        ("type", .string "object"),
        ("additionalProperties", .boolean false),
        ("properties", .object [
          ("require", .object [
            ("$ref", .string "#/$defs/RequireSections"),
            ("default", Config.sectionsJson {})])]),
        ("title", .string "RequireJsdocOptions"),
        ("$schema", schemaDialect),
        ("$defs", .object [("RequireSections", sectionsSchema)])]
  | _ =>
      .object [
        ("type", .string "object"),
        ("additionalProperties", .boolean false),
        ("description", .string "Options of a rule that takes none. Any property is rejected."),
        ("title", .string "NoOptions"),
        ("$schema", schemaDialect)]

def Rule.toJson (rule : Rule) : Json :=
  .object [
    ("id", .string rule.id),
    ("description", .string rule.description),
    ("severity", .string rule.severity.name),
    ("messages", .array (rule.messages.map fun message =>
      .object [("id", .string message.1), ("template", .string message.2)])),
    ("options", rule.optionsSchema)]

def rulesJson : Json := .array (Rule.checks.map Rule.toJson)

end StoreLint
