import TreeLint.Finding.Severity
import TreeLint.Naming.Convention

/-!
# Configurations

A configuration as a host hands it over: options of the naming rules and severities of rules.
Everything in it is optional. What is written as JSON is read back by `Settings.Reader`.
-/

namespace TreeLint

/-- The severity a configuration gives to a rule. -/
inductive RuleSeverity where
  | off | info | hint | warn | error
deriving Repr, DecidableEq

namespace RuleSeverity

/-- The severity of the rule's findings; none when the rule is off. -/
def severity? : RuleSeverity → Option Severity
  | .off => none
  | .info => some .info
  | .hint => some .hint
  | .warn => some .warning
  | .error => some .error

def name : RuleSeverity → String
  | .off => "off"
  | .info => "info"
  | .hint => "hint"
  | .warn => "warn"
  | .error => "error"

/-- The severities with all names under which they are accepted. -/
def variants : List (String × RuleSeverity) := [
  ("off", .off), ("info", .info), ("hint", .hint), ("warn", .warn), ("warning", .warn),
  ("error", .error)]

def ofJson : Json.Decoder RuleSeverity :=
  Json.Decode.choice variants

def toJson (severity : RuleSeverity) : Json :=
  .string severity.name

end RuleSeverity

namespace Convention

def name : Convention → String
  | .camelCase => "camelCase"
  | .pascalCase => "pascalCase"

/-- The conventions with all names under which they are accepted. -/
def variants : List (String × Convention) := [
  ("PascalCase", .pascalCase), ("pascalCase", .pascalCase), ("CamelCase", .camelCase),
  ("camelCase", .camelCase)]

def ofJson : Json.Decoder Convention :=
  Json.Decode.choice variants

def toJson (convention : Convention) : Json :=
  .string convention.name

end Convention

/-- Options of the naming rules. -/
structure NamingConfiguration where
  tupleElementCasing : Option Convention
  includeInferred : Option Bool
deriving Repr, DecidableEq

/-- Options of the naming rules and severities of rules by their ids. -/
structure Configuration where
  naming : Option NamingConfiguration
  rules : Option (Dict RuleSeverity)
deriving DecidableEq

namespace NamingConfiguration

/-- The name of the casing option. -/
def casingKey : String := "tupleElementNameCasing"

/-- The name of the option for inferred names. -/
def inferredKey : String := "includeInferredTupleElementNames"

/-- Naming options as a JSON value. -/
def toJson (naming : NamingConfiguration) : Json :=
  .object [
    (casingKey, .ofOption Convention.toJson naming.tupleElementCasing),
    (inferredKey, .ofOption .bool naming.includeInferred)]

end NamingConfiguration

namespace Configuration

/-- The name of the naming options. -/
def namingKey : String := "naming"

/-- The name of the severities. -/
def rulesKey : String := "rules"

def toJson (configuration : Configuration) : Json :=
  .object [
    (namingKey, .ofOption NamingConfiguration.toJson configuration.naming),
    (rulesKey, .ofOption (.ofDict RuleSeverity.toJson) configuration.rules)]

end Configuration

end TreeLint
