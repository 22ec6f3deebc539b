import TreeLint.Json.Decode
import TreeLint.Tree.Kind

/-!
# Failures of rules

A rule that failed while it was checking a node. Failures are kept apart from findings.
-/

namespace TreeLint

/-- The failure of a rule at a node. -/
structure Failure where
  ruleId : String
  nodeKind : String
  span : Span
  message : String
deriving Repr, DecidableEq

namespace Failure

/-- The failure of a rule at an element of a kind. -/
def of (ruleId : String) (kind : Kind) (span : Span) (message : String) : Failure :=
  ⟨ruleId, kind.name, span, message⟩

def toJson (failure : Failure) : Json :=
  .object [
    ("rule_id", .string failure.ruleId),
    ("node_kind", .string failure.nodeKind),
    ("span", .ofSpan failure.span),
    ("message", .string failure.message)]

open Json.Decode in
/-- The fields of a failure in their declared order. -/
def fields : List Field := [
  field "rule_id" string,
  field "node_kind" string,
  field "span" Json.Decode.span,
  field "message" string]

open Json.Decode in
def ofJson (value : Json) : Except Json.Problem Failure := do
  let fields ← record "CheckerFailure" fields value
  return {
    ruleId := ← fields.required "rule_id" string
    nodeKind := ← fields.required "node_kind" string
    span := ← fields.required "span" Json.Decode.span
    message := ← fields.required "message" string }

end Failure

end TreeLint
