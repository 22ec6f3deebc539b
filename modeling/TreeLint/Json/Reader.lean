import TreeLint.Json.Lexeme

/-!
# Reading JSON values

The second stage of reading puts lexemes together to a value, one lexeme at a time. The lists and
objects that have been opened are kept as a stack.
-/

namespace TreeLint.Json

/-- A list or object that is open: what it holds already, the last first, and for an object the
name of the member being read. -/
inductive OpenValue where
  | list (before : List Json)
  | object (members : List (String × Json)) (name : String)

/-- What may come next, with the values that are open, innermost first. -/
inductive Expectation where
  | value (opened : List OpenValue)
  | firstItem (opened : List OpenValue)
  | laterItem (before : List Json) (opened : List OpenValue)
  | firstName (opened : List OpenValue)
  | laterName (members : List (String × Json)) (opened : List OpenValue)
  | colon (members : List (String × Json)) (name : String) (opened : List OpenValue)
  | listEnd (before : List Json) (opened : List OpenValue)
  | objectEnd (members : List (String × Json)) (opened : List OpenValue)
  | textEnd (value : Json)

namespace Expectation

/-- What comes after a complete value. -/
def after (result : Json) : List OpenValue → Expectation
  | [] => .textEnd result
  | .list before :: opened => .listEnd (result :: before) opened
  | .object members name :: opened => .objectEnd (withMember members name result) opened

/-- A lexeme at the place of a value. -/
def takeValue (opened : List OpenValue) : Lexeme → Except Fault Expectation
  | .null => .ok (after .null opened)
  | .bool truth => .ok (after (.bool truth) opened)
  | .number reading => reading.used.map fun number => after (.number number) opened
  | .string reading => reading.used.map fun text => after (.string text) opened
  | .openList => .ok (.firstItem opened)
  | .openObject => .ok (.firstName opened)
  | .brokenNull fault | .brokenBool fault => .error fault
  | .closeList | .closeObject | .comma | .colon | .stray _ => .error .expectedValue

/-- A lexeme at the place of a member's name. -/
def takeName (members : List (String × Json)) (opened : List OpenValue) :
    Lexeme → Except Fault Expectation
  | .string reading => reading.used.map fun name => .colon members name opened
  | _ => .error .expectedKey

def take : Expectation → Lexeme → Except Fault Expectation
  | .value opened, lexeme => takeValue opened lexeme
  | .firstItem opened, .closeList => .ok (after (.array []) opened)
  | .firstItem opened, lexeme => takeValue (.list [] :: opened) lexeme
  | .laterItem _ _, .closeList => .error .trailingComma
  | .laterItem before opened, lexeme => takeValue (.list before :: opened) lexeme
  | .firstName opened, .closeObject => .ok (after (.object []) opened)
  | .firstName opened, lexeme => takeName [] opened lexeme
  | .laterName _ _, .closeObject => .error .trailingComma
  | .laterName members opened, lexeme => takeName members opened lexeme
  | .colon members name opened, .colon => .ok (.value (.object members name :: opened))
  | .colon _ _ _, _ => .error .expectedColon
  | .listEnd before opened, .comma => .ok (.laterItem before opened)
  | .listEnd before opened, .closeList => .ok (after (.array before.reverse) opened)
  | .listEnd _ _, _ => .error .expectedListEnd
  | .objectEnd members opened, .comma => .ok (.laterName members opened)
  | .objectEnd members opened, .closeObject => .ok (after (.object members) opened)
  | .objectEnd _ _, _ => .error .expectedObjectEnd
  | .textEnd _, _ => .error .trailingText

/-- What the end of the text means. -/
def atEnd : Expectation → Except Fault Json
  | .value _ | .laterItem _ _ | .laterName _ _ => .error .endInValue
  | .firstItem _ | .listEnd _ _ => .error .endInList
  | .firstName _ | .colon _ _ _ | .objectEnd _ _ => .error .endInObject
  | .textEnd result => .ok result

end Expectation

/-- The value that lexemes spell. -/
def ofLexemes (lexemes : List Lexeme) : Except Fault Json :=
  (lexemes.foldlM Expectation.take (.value [])).bind Expectation.atEnd

def read (text : String) : Except Fault Json :=
  ofLexemes (Lexeme.ofText text)

end TreeLint.Json
