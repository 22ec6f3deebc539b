import TreeLint.Decimal.Shortest

/-!
# JSON values

A value keeps the members of an object in the order in which they are written. Numbers without
fraction and exponent are integers; all others are double precision numbers.
-/

namespace TreeLint

/-- A JSON number. -/
inductive Json.Number where
  | integer (value : Int)
  | real (negative : Bool) (magnitude : Binary64)
deriving Repr, DecidableEq

/-- A JSON value. -/
inductive Json where
  | null
  | bool (value : Bool)
  | number (value : Json.Number)
  | string (text : String)
  | array (items : List Json)
  | object (members : List (String × Json))

namespace Json

def Number.text : Number → String
  | .integer value => toString value
  | .real negative magnitude => (if negative then "-" else "") ++ magnitude.text

def natural (n : Nat) : Json :=
  .number (.integer n)

/-- An optional value, where absence is null. -/
def ofOption {α : Type} (encode : α → Json) : Option α → Json
  | none => .null
  | some value => encode value

/-- Members with one more: a member of the same name is replaced in its place. -/
def withMember (members : List (String × Json)) (name : String) (value : Json) :
    List (String × Json) :=
  match members with
  | [] => [(name, value)]
  | member :: members =>
      if member.1 = name then (name, value) :: members
      else member :: withMember members name value

/-- The value of an object's member; absent in values that are no objects. -/
def member? (value : Json) (name : String) : Option Json :=
  match value with
  | .object members => members.lookup name
  | _ => none

end Json

end TreeLint
