import TreeLint.Finding.Severity
import TreeLint.Text.Template

/-!
# Rule descriptors

What is known about a rule apart from how it checks: its names, its category, how severe its
findings are by default, and the template of their messages.
-/

namespace TreeLint

/-- The description of a rule. -/
structure Descriptor where
  id : String
  code : String
  name : String
  category : Category
  defaultSeverity : Severity
  enabledByDefault : Bool
  message : String
deriving Repr, DecidableEq

namespace Descriptor

/-- The part of the id after its last slash. -/
def slug (descriptor : Descriptor) : String :=
  .ofList (descriptor.id.toList.reverse.takeWhile (· != '/')).reverse

/-- The message of a finding with the given arguments. -/
def formatMessage (descriptor : Descriptor) (args : List String) : String :=
  Text.fill descriptor.message args

/-- The id and the code of a rule. -/
def text (descriptor : Descriptor) : String :=
  s!"{descriptor.id} ({descriptor.code})"

def toJson (descriptor : Descriptor) : Json :=
  .object [
    ("id", .string descriptor.id),
    ("code", .string descriptor.code),
    ("name", .string descriptor.name),
    ("category", descriptor.category.toJson),
    ("default_severity", descriptor.defaultSeverity.toJson),
    ("enabled_by_default", .bool descriptor.enabledByDefault),
    ("message", .string descriptor.message)]

end Descriptor

end TreeLint
