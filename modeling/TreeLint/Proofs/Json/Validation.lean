import TreeLint.Json.Value

/-!
# Values that schemas admit

The meaning of the keywords of JSON Schema that describe the shape of a value
(`TreeLint.Json.Schema.admits`). Members of a schema with other names explain it and do not restrict
the values. References lead to the definitions of the whole document
(`TreeLint.Json.Schema.validates`).
-/

namespace TreeLint.Json

/-- The members of an object; none of other values. -/
def members : Json → List (String × Json)
  | .object members => members
  | _ => []

namespace Schema

/-- Whether a value has the type with a name. Whole numbers are not told from other numbers. -/
def hasType (value : Json) : Json → Bool
  | .string type =>
      match value with
      | .null => type == "null"
      | .bool _ => type == "boolean"
      | .number _ => type == "number"
      | .string _ => type == "string"
      | .array _ => type == "array"
      | .object _ => type == "object"
  | _ => false

/-- Whether a value is a text. -/
def isText (text : String) : Json → Bool
  | .string other => other == text
  | _ => false

/-- The names of the members for which a schema has a schema of their own. -/
def declared (keywords : List (String × Json)) : List String :=
  ((keywords.lookup "properties").map fun content => content.members.map (·.1)).getD []

mutual

/-- Whether a schema admits a value, where `refers` tells what references admit. A value that a
schema wants to be constant is a text. -/
def admits (refers : String → Json → Bool) : Json → Json → Bool
  | .bool truth, _ => truth
  | .object keywords, value => admitsBy refers (declared keywords) keywords value
  | _, _ => false
termination_by structural schema => schema

/-- Whether each of several keywords admits a value. -/
def admitsBy (refers : String → Json → Bool) (declared : List String) :
    List (String × Json) → Json → Bool
  | [], _ => true
  | (keyword, content) :: keywords, value =>
      (match keyword, content with
        | "$ref", .string pointer => refers pointer value
        | "type", .array types => types.any (hasType value)
        | "type", type => hasType value type
        | "const", .string text => isText text value
        | "anyOf", .array schemas => 0 < admitting refers schemas value
        | "oneOf", .array schemas => admitting refers schemas value == 1
        | "properties", .object schemas => admitsMembers refers schemas value
        | "additionalProperties", schema => value.members.all fun member =>
            declared.contains member.1 || admits refers schema member.2
        | _, _ => true) && admitsBy refers declared keywords value
termination_by structural keywords => keywords

/-- How many of several schemas admit a value. -/
def admitting (refers : String → Json → Bool) : List Json → Json → Nat
  | [], _ => 0
  | schema :: schemas, value => (admits refers schema value).toNat + admitting refers schemas value
termination_by structural schemas => schemas

/-- Whether the schemas for members admit all members with their names. -/
def admitsMembers (refers : String → Json → Bool) : List (String × Json) → Json → Bool
  | [], _ => true
  | (name, schema) :: schemas, value =>
      (value.members.all fun member => member.1 != name || admits refers schema member.2) &&
        admitsMembers refers schemas value
termination_by structural schemas => schemas

end

/-- The definitions of a schema. -/
def definitions (root : Json) : List (String × Json) :=
  ((root.member? "$defs").map members).getD []

/-- What the references of a schema admit, if at most `depth` of them lead on from each other. -/
def refers (root : Json) : (depth : Nat) → String → Json → Bool
  | 0, _, _ => false
  | depth + 1, pointer, value =>
      match (definitions root).find? fun definition => "#/$defs/" ++ definition.1 == pointer with
      | some definition => admits (refers root depth) definition.2 value
      | none => false

/-- Whether a value is valid against a whole schema. References are followed as often as there are
definitions, which is enough unless they lead in a circle. -/
def validates (root value : Json) : Bool :=
  admits (refers root (definitions root).length) root value

end Schema

/-! ### Values without repeated names -/

mutual

/-- Whether no object in a value has two members of one name. -/
def isDistinct : Json → Bool
  | .array items => areDistinct items
  | .object members => decide (members.map (·.1)).Nodup && haveDistinct members
  | _ => true

/-- Whether no object in any of several values has two members of one name. -/
def areDistinct : List Json → Bool
  | [] => true
  | item :: items => item.isDistinct && areDistinct items

/-- Whether no object in the values of members has two members of one name. -/
def haveDistinct : List (String × Json) → Bool
  | [] => true
  | (_, value) :: members => value.isDistinct && haveDistinct members

end

theorem isDistinct_of_mem {members : List (String × Json)} (distinct : haveDistinct members = true)
    {member : String × Json} (listed : member ∈ members) : member.2.isDistinct = true := by
  induction members with
  | nil => exact absurd listed List.not_mem_nil
  | cons first members ih =>
      obtain ⟨here, later⟩ := Bool.and_eq_true_iff.mp distinct
      rcases List.mem_cons.mp listed with rfl | listed
      · exact here
      · exact ih later listed

end TreeLint.Json
