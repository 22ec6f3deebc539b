import TreeLint.Json.Problem

/-!
# Versions as JSON values

A version is written as its full text.
-/

namespace TreeLint.Version

def toJson (version : Version) : Json :=
  .string version.text

def ofJson : Json → Except Json.Problem Version
  | .string text => (read text).mapError .invalidVersion
  | value => .error (.wrongType value.found "semver version")

end TreeLint.Version
