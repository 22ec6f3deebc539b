import TreeLint.Json.Value

/-!
# Writing JSON

The compact text of a value: no blanks, members in order, and in strings only those characters
escaped that must be.
-/

namespace TreeLint.Json

/-- A character of a string: quotation mark, backslash and control characters are escaped. -/
def escapeChar (c : Char) : List Char :=
  if c = '"' then ['\\', '"']
  else if c = '\\' then ['\\', '\\']
  else if c = '\x08' then ['\\', 'b']
  else if c = '\x0c' then ['\\', 'f']
  else if c = '\n' then ['\\', 'n']
  else if c = '\r' then ['\\', 'r']
  else if c = '\t' then ['\\', 't']
  else if c.toNat < 32 then
    ['\\', 'u', '0', '0'] ++ [Nat.digitChar (c.toNat / 16), Nat.digitChar (c.toNat % 16)]
  else [c]

def stringChars (text : String) : List Char :=
  '"' :: text.toList.flatMap escapeChar ++ ['"']

mutual

/-- The text of a value, as characters. -/
def chars : Json → List Char
  | .null => "null".toList
  | .bool true => "true".toList
  | .bool false => "false".toList
  | .number value => value.text.toList
  | .string text => stringChars text
  | .array items => '[' :: itemChars true items ++ [']']
  | .object members => '\x7b' :: memberChars true members ++ ['\x7d']

/-- The text of the items of a list, from the first or a later one on. -/
def itemChars (isFirst : Bool) : List Json → List Char
  | [] => []
  | item :: items => (if isFirst then [] else [',']) ++ item.chars ++ itemChars false items

/-- The text of the members of an object, from the first or a later one on. -/
def memberChars (isFirst : Bool) : List (String × Json) → List Char
  | [] => []
  | (name, value) :: members =>
      (if isFirst then [] else [',']) ++ stringChars name ++ ':' :: value.chars ++
        memberChars false members

end

/-- The text of a value. -/
def render (value : Json) : String :=
  String.ofList value.chars

end TreeLint.Json
