import TreeLint.Finding.Suggestion
import TreeLint.Rule.Descriptor

/-!
# Findings

What a rule reports: a message about a place in a file, with properties that a fixer may read and
with suggested edits.
-/

namespace TreeLint

/-- A finding of a rule. -/
structure Finding where
  ruleId : String
  code : Option String
  severity : Severity
  message : String
  messageArgs : List String
  location : Location
  properties : Dict String
  suggestions : List Suggestion
  category : Option Category
deriving DecidableEq

namespace Finding

/-- A finding of a described rule, with the message for the given arguments. -/
def ofRule (descriptor : Descriptor) (severity : Severity) (location : Location)
    (args : List String) : Finding :=
  { ruleId := descriptor.id
    code := some descriptor.code
    severity := severity
    message := descriptor.formatMessage args
    messageArgs := args
    location := location
    properties := .empty
    suggestions := []
    category := some descriptor.category }

def withProperty (finding : Finding) (key value : String) : Finding :=
  { finding with properties := finding.properties.insert key value }

def withProperties (finding : Finding) (properties : Dict String) : Finding :=
  { finding with properties := finding.properties.insertAll properties.entries }

def withSuggestion (finding : Finding) (suggestion : Suggestion) : Finding :=
  { finding with suggestions := finding.suggestions ++ [suggestion] }

/-- The value of a property. -/
def property? (finding : Finding) (key : String) : Option String :=
  finding.properties.find? key

/-- Whether a suggestion may be applied without review. -/
def hasSafeFixes (finding : Finding) : Bool :=
  finding.suggestions.any (·.applicability = .always)

/-- The bytes a finding is about: the span of its location or, if that has none, the bytes that its
offset and length tell. Absent when offset and length lead beyond the largest offset. -/
def span? (finding : Finding) : Option Span :=
  (Span.ofLength? finding.location.offset finding.location.length).map fun told =>
    finding.location.span.getD told

/-- The line of a finding. -/
def text (finding : Finding) : String :=
  s!"{finding.location.text}: {finding.severity.word} [{finding.ruleId}] {finding.message}"

def toJson (finding : Finding) : Json :=
  .object [
    ("rule_id", .string finding.ruleId),
    ("code", .ofOption .string finding.code),
    ("severity", finding.severity.toJson),
    ("message", .string finding.message),
    ("message_args", .ofList .string finding.messageArgs),
    ("location", finding.location.toJson),
    ("properties", .ofDict .string finding.properties),
    ("suggestions", .ofList Suggestion.toJson finding.suggestions),
    ("category", .ofOption Category.toJson finding.category)]

open Json.Decode in
/-- The fields of a finding in their declared order. -/
def fields : List Field := [
  field "rule_id" string,
  field "code" (option string),
  field "severity" Severity.ofJson,
  field "message" string,
  field "message_args" (list string),
  field "location" Location.ofJson,
  field "properties" (dict string),
  field "suggestions" (list Suggestion.ofJson),
  field "category" (option Category.ofJson)]

open Json.Decode in
def ofJson (value : Json) : Except Json.Problem Finding := do
  let fields ← record "Diagnostic" fields value
  return {
    ruleId := ← fields.required "rule_id" string
    code := ← fields.optional "code" string
    severity := ← fields.required "severity" Severity.ofJson
    message := ← fields.required "message" string
    messageArgs := ← fields.required "message_args" (list string)
    location := ← fields.required "location" Location.ofJson
    properties := ← fields.required "properties" (dict string)
    suggestions := ← fields.required "suggestions" (list Suggestion.ofJson)
    category := ← fields.optional "category" Category.ofJson }

end Finding

end TreeLint
