import TreeLint.Rule.Checker
import TreeLint.Tree.View

/-!
# Casing of tuple element names

The names of tuple elements have to follow the casing convention of the settings: names declared
in tuple types and names given in tuple literals, and, where the settings ask for it, names that a
tuple literal takes over from its elements. A name that is written down can be corrected by an
edit; a name that is taken over belongs to another declaration and is only reported.
-/

namespace TreeLint.Casing

def descriptor : Descriptor where
  id := "naming/tuple-element-casing"
  code := "CL1001"
  name := "Tuple element names must use correct casing"
  category := .naming
  defaultSeverity := .warning
  enabledByDefault := true
  message := "Tuple element name '\x7b0\x7d' should use \x7b1\x7d casing"

/-- The property of a finding that carries the corrected name. -/
def namePropertyKey : String := "TupleElementName"

/-- The edit that puts a corrected name in place of the name at a location. -/
def rename (fixed : String) (location : Location) : Suggestion :=
  ⟨s!"Rename to '{fixed}'", fixed, location, .maybeIncorrect⟩

/-- The finding that a name at a span does not follow the convention. -/
def finding (context : Context) (name : String) (span : Span) : Finding :=
  context.finding descriptor span [name, context.settings.casing.label]

/-- The finding about a name that is written down. -/
def writtenFinding? (context : Context) (token : Token) : Option Finding :=
  (context.settings.casing.fix? token.text).map fun fixed =>
    ((finding context token.text token.span).withProperty namePropertyKey fixed).withSuggestion
      (rename fixed (context.location token.span))

/-- The finding about a name that is taken over from an expression. -/
def inferredFinding? (context : Context) (expression : Node) : Option Finding := do
  let name ← expression.inferredName?
  let _ ← context.settings.casing.fix? name
  return finding context name expression.span

/-- Whether names that are written down are checked. -/
def checksWritten (context : Context) : Bool :=
  context.unit.version.supportsNamedTuples

/-- Whether names that are taken over are checked. -/
def checksInferred (context : Context) : Bool :=
  context.unit.version.supportsInferredNames && context.settings.includeInferred

/-- The finding about an element of a tuple type. -/
def elementFinding? (context : Context) (element : TupleElement) : Option Finding :=
  if checksWritten context then element.name?.bind (writtenFinding? context) else none

/-- The finding about an argument of a tuple literal. A name label, even one without a name, is
what names the element. -/
def argumentFinding? (context : Context) (argument : Argument) : Option Finding :=
  match argument.nameColon? with
  | some label =>
      if checksWritten context then label.name?.bind (writtenFinding? context) else none
  | none =>
      if checksInferred context then argument.expression?.bind (inferredFinding? context)
      else none

def findings (context : Context) (node : Node) : List Finding :=
  match node.as? .tupleType with
  | some tuple => (TupleType.elements tuple).filterMap (elementFinding? context)
  | none =>
      match node.as? .tupleExpression with
      | some tuple => tuple.node.arguments.filterMap (argumentFinding? context)
      | none => []

def checker : Checker :=
  .ofFindings descriptor [.node .tupleType, .node .tupleExpression] findings

end TreeLint.Casing
