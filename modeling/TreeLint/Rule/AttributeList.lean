import TreeLint.Rule.Checker
import TreeLint.Tree.View

/-!
# Empty argument lists of attributes

The argument list of an attribute can be removed when it has no arguments.
-/

namespace TreeLint.AttributeList

def descriptor : Descriptor where
  id := "maintainability/attribute-parentheses"
  code := "CL2002"
  name := "Remove unnecessary attribute parenthesis"
  category := .maintainability
  defaultSeverity := .warning
  enabledByDefault := true
  message := "Attribute '\x7b0\x7d' has an empty argument list that can be removed"

/-- The finding about the argument list of an attribute; an attribute without a name is named by
the empty text. -/
def finding (context : Context) (attr : Attribute) (list : AttributeArgumentList) : Finding :=
  (context.finding descriptor list.node.span [attr.name?.getD ""]).withSuggestion
    (.deletion "Remove the empty argument list" (context.location list.node.span))

def finding? (context : Context) (attr : Attribute) : Option Finding := do
  let list ← attr.argumentList?
  if list.arguments.isEmpty then return finding context attr list else none

def findings (context : Context) (node : Node) : List Finding :=
  ((node.as? .attribute).bind (finding? context)).toList

def checker : Checker :=
  .ofFindings descriptor [.node .attribute] findings

end TreeLint.AttributeList
