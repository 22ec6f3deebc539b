import TreeLint.Text.CaseTable

/-!
# Case mapping of characters

The full case mappings of a character and the property Lowercase. A mapping may have several
characters, as the uppercase of the sharp s; a character without an entry maps to itself.
-/

namespace TreeLint.Text

/-- Whether a code point belongs to a span. -/
def CodeSpan.contains (span : CodeSpan) (code : Nat) : Bool :=
  span.first ≤ code && code ≤ span.last && (code - span.first) % span.step == 0

/-- The code point a member of the span maps to. -/
def CaseSpan.map (span : CaseSpan) (code : Nat) : Nat :=
  span.image + (code - span.first)

/-- The code points a code point maps to, by an expansion table and a table of spans. -/
def mapCode (expansions : List (Nat × List Nat)) (spans : List CaseSpan) (code : Nat) : List Nat :=
  match expansions.lookup code with
  | some image => image
  | none =>
      match spans.find? (·.contains code) with
      | some span => [span.map code]
      | none => [code]

/-- Whether the character has the property Lowercase. -/
def isLowercase (c : Char) : Bool :=
  lowercaseSpans.any (·.contains c.toNat)

/-- The full lowercase mapping of a character. -/
def toLowercase (c : Char) : List Char :=
  (mapCode toLowerExpansions toLowerSpans c.toNat).map Char.ofNat

/-- The full uppercase mapping of a character. -/
def toUppercase (c : Char) : List Char :=
  (mapCode toUpperExpansions toUpperSpans c.toNat).map Char.ofNat

end TreeLint.Text
