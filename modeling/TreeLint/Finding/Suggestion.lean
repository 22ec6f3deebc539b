import TreeLint.Finding.Location

/-!
# Suggestions

A proposed edit: replacing the text at a location. Its applicability says whether it may be applied
without review.
-/

namespace TreeLint

/-- Whether an edit may be applied without review. -/
inductive Applicability where
  | always | maybeIncorrect
deriving Repr, DecidableEq

namespace Applicability

def word : Applicability → String
  | .always => "safe"
  | .maybeIncorrect => "unsafe"

def name : Applicability → String
  | .always => "always"
  | .maybeIncorrect => "maybeIncorrect"

/-- The applicabilities with their written names. -/
def variants : List (String × Applicability) :=
  [("always", .always), ("maybeIncorrect", .maybeIncorrect)]

def ofJson : Json.Decoder Applicability :=
  Json.Decode.choice variants

end Applicability

/-- A proposed replacement of the text at a location. -/
structure Suggestion where
  message : String
  replacement : String
  location : Location
  applicability : Applicability
deriving Repr, DecidableEq

namespace Suggestion

/-- The deletion of the text at a location, which is always applicable. -/
def deletion (message : String) (location : Location) : Suggestion :=
  ⟨message, "", location, .always⟩

def toJson (suggestion : Suggestion) : Json :=
  .object [
    ("message", .string suggestion.message),
    ("replacement", .string suggestion.replacement),
    ("location", suggestion.location.toJson),
    ("applicability", .string suggestion.applicability.name)]

open Json.Decode in
/-- The fields of a suggestion in their declared order. -/
def fields : List Field := [
  field "message" string,
  field "replacement" string,
  field "location" Location.ofJson,
  field "applicability" Applicability.ofJson]

open Json.Decode in
def ofJson (value : Json) : Except Json.Problem Suggestion := do
  let fields ← record "CodeSuggestion" fields value
  return {
    message := ← fields.required "message" string
    replacement := ← fields.required "replacement" string
    location := ← fields.required "location" Location.ofJson
    applicability := ← fields.required "applicability" Applicability.ofJson }

end Suggestion

end TreeLint
