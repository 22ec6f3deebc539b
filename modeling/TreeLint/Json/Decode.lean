import TreeLint.Dict
import TreeLint.Json.Problem
import TreeLint.Text.Span

/-!
# Decoding JSON values

Decoders of the common shapes, and the decoding of records. A record is an object with named
fields, or an array of the fields in their declared order. The fields of an object are read in the
order in which they are written, so that the first of them that has a problem decides; only then
are missing fields looked for, in declared order. Unknown fields are ignored.
-/

namespace TreeLint.Json

/-- Turns a value into one of another type. -/
abbrev Decoder (α : Type) := Json → Except Problem α

namespace Decode

variable {α : Type}

/-- A text. -/
def string : Decoder String
  | .string text => .ok text
  | value => .error (.wrongType value.found "a string")

/-- The path of a file. -/
def path : Decoder String
  | .string text => .ok text
  | value => .error (.wrongType value.found "path string")

/-- A count, a size or an offset. -/
def natural : Decoder Nat
  | .number (.integer value) =>
      if value < 0 then .error (.wrongValue (.number (.integer value)) "usize")
      else .ok value.toNat
  | value => .error (.wrongType value.found "usize")

/-- A value that may be null. -/
def option (decode : Decoder α) : Decoder (Option α)
  | .null => .ok none
  | value => (decode value).map some

def list (decode : Decoder α) : Decoder (List α)
  | .array items => items.mapM decode
  | value => .error (.wrongType value.found "a sequence")

/-- A dictionary, where the last member of a name counts. -/
def dict (decode : Decoder α) : Decoder (Dict α)
  | .object members => do
      let entries ← members.mapM fun member => do return (member.1, ← decode member.2)
      return .ofList entries
  | value => .error (.wrongType value.found "a map")

/-- The problem of a list that has items beyond those expected. -/
def tooLong (items : List Json) : Problem :=
  .wrongLength items.length "fewer elements in array"

/-- Two offsets. -/
def span : Decoder Span
  | .array [] => .error (.wrongLength 0 "a tuple of size 2")
  | .array [start] => do
      let _ ← natural start
      throw (.wrongLength 1 "a tuple of size 2")
  | .array (start :: stop :: rest) => do
      let span := Span.mk (← natural start) (← natural stop)
      if rest.isEmpty then return span else throw (tooLong (start :: stop :: rest))
  | value => .error (.wrongType value.found "a tuple of size 2")

/-- One of several names. -/
def variant (variants : List (String × α)) (name : String) : Except Problem α :=
  match variants.lookup name with
  | some value => .ok value
  | none => .error (.unknownVariant name (variants.map (·.1)))

/-- One of several names, written alone or as the only member of an object whose value is null. -/
def choice (variants : List (String × α)) : Decoder α
  | .string name => variant variants name
  | .object [(name, content)] => do
      let value ← variant variants name
      match content with
      | .null => return value
      | _ => throw (.wrongType content.found "unit")
  | .object _ => .error (.wrongValue .map "map with a single key")
  | value => .error (.wrongType value.found "string or map")

/-- A field of a record: its name and what its value is checked for. -/
abbrev Field := String × (Json → Except Problem Unit)

/-- A field whose value must be decodable. -/
def field (name : String) (decode : Decoder α) : Field :=
  (name, fun value => (decode value).map fun _ => ())

/-- The values of the fields that a record has. -/
structure Fields where
  values : List (String × Json)

/-- Checks the members of an object in the order in which they are written. -/
def checkMembers (fields : List Field) : List (String × Json) → Except Problem Unit
  | [] => .ok ()
  | (name, value) :: members => do
      match fields.lookup name with
      | some check => check value
      | none => pure ()
      checkMembers fields members

/-- Checks the items of an array as the fields of a record of `count` fields, from the field with
an index on. -/
def checkItems (type : String) (count : Nat) : (index : Nat) → List Field → List Json →
    Except Problem Unit
  | _, [], _ => .ok ()
  | index, _ :: _, [] => .error (.wrongLength index s!"struct {type} with {count} elements")
  | index, (_, check) :: fields, item :: items => do
      check item
      checkItems type count (index + 1) fields items

/-- The values of the fields of a record, all of them decodable. -/
def record (type : String) (fields : List Field) : Decoder Fields
  | .object members => do
      checkMembers fields members
      return ⟨members⟩
  | .array items => do
      checkItems type fields.length 0 fields items
      if fields.length < items.length then throw (tooLong items)
      return ⟨(fields.map (·.1)).zip items⟩
  | value => .error (.wrongType value.found s!"struct {type}")

/-- The value of a field that must be there. -/
def Fields.required (fields : Fields) (name : String) (decode : Decoder α) : Except Problem α :=
  match fields.values.lookup name with
  | some value => decode value
  | none => .error (.missingField name)

/-- The value of a field that may be missing or null. -/
def Fields.optional (fields : Fields) (name : String) (decode : Decoder α) :
    Except Problem (Option α) :=
  match fields.values.lookup name with
  | some value => option decode value
  | none => .ok none

end Decode

/-- A dictionary as a value. -/
def ofDict {α : Type} (encode : α → Json) (dict : Dict α) : Json :=
  .object (dict.entries.map fun entry => (entry.1, encode entry.2))

/-- A span as a value. -/
def ofSpan (span : Span) : Json :=
  .array [.natural span.start, .natural span.stop]

/-- A list as a value. -/
def ofList {α : Type} (encode : α → Json) (items : List α) : Json :=
  .array (items.map encode)

end TreeLint.Json
