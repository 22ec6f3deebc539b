import TreeLint.Text.Case

/-!
# Naming conventions

A convention says what the first character of a name has to be: lowercase under camel case, not
lowercase under Pascal case. A name whose first character has no mapping towards the convention
complies with it.
-/

namespace TreeLint

/-- A convention for the first character of names. -/
inductive Convention where
  | camelCase | pascalCase
deriving Repr, DecidableEq

namespace Convention

/-- What messages call a convention. -/
def label : Convention → String
  | .camelCase => "camelCase"
  | .pascalCase => "PascalCase"

/-- Whether a first character complies with the convention. -/
def accepts (convention : Convention) (first : Char) : Bool :=
  match convention with
  | .camelCase => Text.isLowercase first
  | .pascalCase => !Text.isLowercase first

/-- The case mapping of a character towards the convention. -/
def map (convention : Convention) (first : Char) : List Char :=
  match convention with
  | .camelCase => Text.toLowercase first
  | .pascalCase => Text.toUppercase first

/-- The characters of a name that does not comply, with the first one mapped; absent when the
characters comply. -/
def fixChars? (convention : Convention) : List Char → Option (List Char)
  | [] => none
  | first :: rest =>
      if convention.accepts first then none
      else if convention.map first = [first] then none
      else some (convention.map first ++ rest)

/-- A corrected name for a name that does not comply. -/
def fix? (convention : Convention) (name : String) : Option String :=
  (convention.fixChars? name.toList).map String.ofList

end Convention

end TreeLint
