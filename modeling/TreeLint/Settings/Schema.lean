import TreeLint.Settings.Configuration

/-!
# The schema of configurations

The published description of configuration documents, as a JSON value.
-/

namespace TreeLint.Configuration.Schema

/-- A value that may be described by one of two types of which one is null. -/
def orNull (type : String) : Json :=
  .array [.string type, .string "null"]

def reference (definition : String) : Json :=
  .object [("$ref", .string ("#/$defs/" ++ definition))]

/-- A value that satisfies a definition of the schema or is null. -/
def definitionOrNull (definition description : String) : Json :=
  .object [
    ("anyOf", .array [reference definition, .object [("type", .string "null")]]),
    ("description", .string description)]

/-- One of the accepted names of a choice. -/
def constant (name description : String) : Json :=
  .object [
    ("const", .string name),
    ("description", .string description),
    ("type", .string "string")]

/-- A choice between names. -/
def choice (description : String) (names : List (String × String)) : Json :=
  .object [
    ("description", .string description),
    ("oneOf", .array (names.map fun (name, description) => constant name description))]

/-- The casing conventions. -/
def conventions : Json :=
  choice "Casing convention for identifiers, decided by the first character" [
    ("pascalCase", "Leading upper case: `Name`"),
    ("camelCase", "Leading lower case: `name`")]

/-- The severities of rules. -/
def severities : Json :=
  choice "Rule severity levels" [
    ("off", "Disable the rule"),
    ("info", "Informational message"),
    ("hint", "Hint"),
    ("warn", "Warning"),
    ("error", "Error")]

/-- The options of the naming rules. -/
def naming : Json :=
  .object [
    ("description", .string "Naming rule options"),
    ("properties", .object [
      (NamingConfiguration.inferredKey, .object [
        ("description", .string
          "Check tuple element names inferred from expressions such as `point.X`"),
        ("type", orNull "boolean")]),
      (NamingConfiguration.casingKey, definitionOrNull "CasingConvention"
        "Casing for tuple element names (camelCase or pascalCase)")]),
    ("type", .string "object")]

end Schema

def schema : Json :=
  .object [
    ("$defs", .object [
      ("CasingConvention", Schema.conventions),
      ("NamingConfiguration", Schema.naming),
      ("RuleSeverity", Schema.severities)]),
    ("$schema", .string "https://json-schema.org/draft/2020-12/schema"),
    ("description", .string "Linter configuration as a host hands it over (camelCase JSON)"),
    ("properties", .object [
      (namingKey, Schema.definitionOrNull "NamingConfiguration" "Options for naming rules"),
      (rulesKey, .object [
        ("additionalProperties", Schema.reference "RuleSeverity"),
        ("description", .string
          "Severity per rule id, e.g. \"naming/tuple-element-casing\": \"error\""),
        ("type", Schema.orNull "object")])]),
    ("title", .string "LinterConfiguration"),
    ("type", .string "object")]

end TreeLint.Configuration
