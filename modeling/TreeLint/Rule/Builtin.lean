import TreeLint.Rule.AnonymousMethodList
import TreeLint.Rule.AttributeList
import TreeLint.Rule.Casing

/-!
# Built-in rules

The rules that an engine has without further registration: the casing of tuple element names and
the two rules about lists that can be removed.
-/

namespace TreeLint.Builtin

/-- The checkers of the built-in rules, in the order of their registration. -/
def checkers : List Checker :=
  [Casing.checker, AnonymousMethodList.checker, AttributeList.checker]

/-- The checker of the built-in rule with an id. -/
def checker? (ruleId : String) : Option Checker :=
  checkers.find? (·.descriptor.id = ruleId)

end TreeLint.Builtin
