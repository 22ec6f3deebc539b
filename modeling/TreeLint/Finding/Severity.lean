import TreeLint.Json.Decode

/-!
# Severities

How severe a finding is, and the categories that order the rules.
-/

namespace TreeLint

/-- How severe a finding is. -/
inductive Severity where
  | info | hint | warning | error
deriving Repr, DecidableEq

namespace Severity

/-- The word for a severity in the line of a finding. -/
def word : Severity → String
  | .info => "info"
  | .hint => "hint"
  | .warning => "warning"
  | .error => "error"

def name : Severity → String
  | .info => "Info"
  | .hint => "Hint"
  | .warning => "Warning"
  | .error => "Error"

/-- The severities with their written names. -/
def variants : List (String × Severity) :=
  [("Info", .info), ("Hint", .hint), ("Warning", .warning), ("Error", .error)]

def toJson (severity : Severity) : Json :=
  .string severity.name

def ofJson : Json.Decoder Severity :=
  Json.Decode.choice variants

end Severity

/-- What a rule is about. -/
inductive Category where
  | correctness | suspicious | naming | maintainability | style | documentation
deriving Repr, DecidableEq

namespace Category

/-- The written name of a category. -/
def slug : Category → String
  | .correctness => "correctness"
  | .suspicious => "suspicious"
  | .naming => "naming"
  | .maintainability => "maintainability"
  | .style => "style"
  | .documentation => "documentation"

/-- The category with a name, where style and documentation have a second name each. -/
def ofSlug? (slug : String) : Option Category :=
  if slug = "correctness" then some .correctness
  else if slug = "suspicious" then some .suspicious
  else if slug = "naming" then some .naming
  else if slug = "maintainability" then some .maintainability
  else if slug = "style" ∨ slug = "layout" then some .style
  else if slug = "documentation" ∨ slug = "docs" then some .documentation
  else none

def toJson (category : Category) : Json :=
  .string category.slug

def ofJson (value : Json) : Except Json.Problem Category := do
  let slug ← Json.Decode.string value
  match ofSlug? slug with
  | some category => return category
  | none => throw (.unknownCategory slug)

end Category

end TreeLint
