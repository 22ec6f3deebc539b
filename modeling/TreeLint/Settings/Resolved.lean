import TreeLint.Rule.Descriptor
import TreeLint.Settings.Configuration

/-!
# Settings

The settings of one analysis, with every option decided. Options that a configuration leaves out
have their defaults. A rule whose severity is configured has that severity, or is off; any other
rule has its own default severity if it is enabled by default, and is off otherwise.
-/

namespace TreeLint

/-- The options of the naming rules and the configured severities by rule id. -/
structure Settings where
  casing : Convention
  includeInferred : Bool
  severities : Dict RuleSeverity
deriving DecidableEq

namespace Settings

/-- Settings of the naming options alone. -/
def naming (casing : Convention) (includeInferred : Bool) : Settings :=
  ⟨casing, includeInferred, .empty⟩

/-- The settings where nothing is configured. -/
def default : Settings :=
  naming .camelCase false

/-- The settings that a configuration describes. -/
def ofConfiguration (configuration : Configuration) : Settings where
  casing := (configuration.naming.bind (·.tupleElementCasing)).getD default.casing
  includeInferred := (configuration.naming.bind (·.includeInferred)).getD default.includeInferred
  severities := configuration.rules.getD .empty

/-- The settings with the severity of one rule configured. -/
def withRuleSeverity (settings : Settings) (ruleId : String) (severity : RuleSeverity) :
    Settings :=
  { settings with severities := settings.severities.insert ruleId severity }

/-- The severity of a rule's findings; none when the rule is off. -/
def severityFor? (settings : Settings) (descriptor : Descriptor) : Option Severity :=
  match settings.severities.find? descriptor.id with
  | some configured => configured.severity?
  | none => if descriptor.enabledByDefault then some descriptor.defaultSeverity else none

end Settings

end TreeLint
