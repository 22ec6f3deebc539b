import TreeLint.Json.Fault
import TreeLint.Json.Value
import TreeLint.Text.Quoted
import TreeLint.Version.Reader

/-!
# Problems of decoding

Why a JSON value or text does not describe a value of the expected type. A problem states its
cause; the wording stands in one place. A decoder reports the first problem it meets.
-/

namespace TreeLint.Json

/-- What a message says about a value that has been found. -/
inductive Found where
  | null
  | bool (value : Bool)
  | number (value : Number)
  | string (text : String)
  | sequence
  | map
deriving Repr, DecidableEq

/-- The words for a value that has been found. -/
def Found.text : Found → String
  | .null => "null"
  | .bool value => s!"boolean `{value}`"
  | .number (.integer value) => s!"integer `{value}`"
  | .number (.real negative magnitude) =>
      s!"floating point `{(Number.real negative magnitude).text}`"
  | .string text => s!"string {Text.quoted text}"
  | .sequence => "sequence"
  | .map => "map"

/-- What a message says about a value. -/
def found : Json → Found
  | .null => .null
  | .bool value => .bool value
  | .number value => .number value
  | .string text => .string text
  | .array _ => .sequence
  | .object _ => .map

/-- A reason why a value or text cannot be decoded. -/
inductive Problem where
  | invalidText (fault : Fault)
  | wrongType (found : Found) (expected : String)
  | wrongValue (found : Found) (expected : String)
  | wrongLength (length : Nat) (expected : String)
  | missingField (name : String)
  | duplicateField (name : String)
  | unknownVariant (name : String) (accepted : List String)
  | unknownCategory (slug : String)
  | invalidVersion (fault : Version.Fault)
deriving Repr, DecidableEq

/-- A name between backticks. -/
def ticked (name : String) : String :=
  s!"`{name}`"

/-- The words for a choice between names. -/
def oneOf : List String → String
  | [name] => ticked name
  | [first, second] => ticked first ++ " or " ++ ticked second
  | names => "one of " ++ ", ".intercalate (names.map ticked)

def Problem.message : Problem → String
  | .invalidText fault => fault.message
  | .wrongType found expected => s!"invalid type: {found.text}, expected {expected}"
  | .wrongValue found expected => s!"invalid value: {found.text}, expected {expected}"
  | .wrongLength length expected => s!"invalid length {length}, expected {expected}"
  | .missingField name => s!"missing field {ticked name}"
  | .duplicateField name => s!"duplicate field {ticked name}"
  | .unknownVariant name accepted =>
      s!"unknown variant {ticked name}, expected {oneOf accepted}"
  | .unknownCategory slug => s!"unknown rule category '{slug}'"
  | .invalidVersion fault => fault.message

end TreeLint.Json
