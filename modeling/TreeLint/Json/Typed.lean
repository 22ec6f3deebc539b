import TreeLint.Json.Decode
import TreeLint.Json.Lexeme

/-!
# Reading texts of an expected type

Readers that take values of an expected type from the lexemes of a text, so that the first problem
in the order of the text decides, whether it lies in the text or in the type. A value that is not
expected is skipped: its lexemes need only fit together.
-/

namespace TreeLint.Json

/-- Takes a value from the front of a list of lexemes and gives the lexemes after it. -/
abbrev Reader (α : Type) := List Lexeme → Except Problem (α × List Lexeme)

/-! ### Skipping -/

/-- What may come next while a value is skipped. -/
inductive SkipStage where
  | value | first | later | name | colon
deriving Repr, DecidableEq

/-- The lists and objects that are open, innermost first. -/
inductive Enclosure where
  | list | object
deriving Repr, DecidableEq

/-- The state of skipping a value. -/
structure Skip where
  stage : SkipStage
  opened : List Enclosure
deriving Repr, DecidableEq

namespace Skip

/-- After a complete value: the value around it, or nothing when there is none. -/
def after (opened : List Enclosure) : Option Skip :=
  if opened.isEmpty then none else some ⟨.later, opened⟩

/-- A lexeme at the place of a value. -/
def takeValue (opened : List Enclosure) : Lexeme → Except Fault (Option Skip)
  | .null | .bool _ => .ok (after opened)
  | .number reading => reading.skipped.map fun _ => after opened
  | .string reading => reading.skipped.map fun _ => after opened
  | .openList => .ok (some ⟨.first, .list :: opened⟩)
  | .openObject => .ok (some ⟨.first, .object :: opened⟩)
  | .brokenNull fault | .brokenBool fault => .error fault
  | .closeList | .closeObject | .comma | .colon | .stray _ => .error .expectedValue

/-- A lexeme at the place of a member's name. -/
def takeName (opened : List Enclosure) : Lexeme → Except Fault (Option Skip)
  | .string reading => reading.skipped.map fun _ => some ⟨.colon, opened⟩
  | _ => .error .expectedKey

/-- Takes one lexeme; nothing is left to skip after the last one. -/
def take (skip : Skip) (lexeme : Lexeme) : Except Fault (Option Skip) :=
  match skip.stage, skip.opened, lexeme with
  | .value, opened, lexeme => takeValue opened lexeme
  | .name, opened, lexeme => takeName opened lexeme
  | .colon, opened, .colon => .ok (some ⟨.value, opened⟩)
  | .colon, _, _ => .error .expectedColon
  | .first, .list :: opened, .closeList => .ok (after opened)
  | .first, .object :: opened, .closeObject => .ok (after opened)
  | .first, .object :: opened, lexeme => takeName (.object :: opened) lexeme
  | .first, opened, lexeme => takeValue opened lexeme
  | .later, .list :: opened, .closeList => .ok (after opened)
  | .later, .object :: opened, .closeObject => .ok (after opened)
  | .later, .list :: opened, .comma => .ok (some ⟨.value, .list :: opened⟩)
  | .later, .object :: opened, .comma => .ok (some ⟨.name, .object :: opened⟩)
  | .later, .object :: _, _ => .error .expectedObjectEnd
  | .later, _, _ => .error .expectedListEnd

/-- The fault of a text that ends here. -/
def atEnd (skip : Skip) : Fault :=
  match skip.stage, skip.opened with
  | .value, _ => .endInValue
  | .name, _ | .colon, _ => .endInObject
  | _, .object :: _ => .endInObject
  | _, _ => .endInList

/-- Skips the rest of a value; gives the lexemes after it. -/
def run : Skip → List Lexeme → Except Fault (List Lexeme)
  | skip, [] => .error skip.atEnd
  | skip, lexeme :: lexemes =>
      match skip.take lexeme with
      | .error fault => .error fault
      | .ok none => .ok lexemes
      | .ok (some skip) => skip.run lexemes

end Skip

namespace Reader

variable {α σ : Type}

/-- Skips a value. -/
def skip : Reader Unit := fun lexemes =>
  match (Skip.mk .value []).run lexemes with
  | .ok rest => .ok ((), rest)
  | .error fault => .error (.invalidText fault)

/-- The problem of a lexeme at the place of a value of another type. -/
def unexpected (expected : String) : Lexeme → Problem
  | .null => .wrongType .null expected
  | .bool value => .wrongType (.bool value) expected
  | .number reading =>
      match reading.used with
      | .ok value => .wrongType (.number value) expected
      | .error fault => .invalidText fault
  | .string reading =>
      match reading.used with
      | .ok text => .wrongType (.string text) expected
      | .error fault => .invalidText fault
  | .openList => .wrongType .sequence expected
  | .openObject => .wrongType .map expected
  | .brokenNull fault | .brokenBool fault => .invalidText fault
  | .closeList | .closeObject | .comma | .colon | .stray _ => .invalidText .expectedValue

def content (reading : Reading String) (rest : List Lexeme) :
    Except Problem (String × List Lexeme) :=
  match reading.used with
  | .ok text => .ok (text, rest)
  | .error fault => .error (.invalidText fault)

/-- A truth value. -/
def bool : Reader Bool
  | .bool value :: rest => .ok (value, rest)
  | lexeme :: _ => .error (unexpected "a boolean" lexeme)
  | [] => .error (.invalidText .endInValue)

/-- Nothing, written as null. -/
def unit : Reader Unit
  | .null :: rest => .ok ((), rest)
  | lexeme :: _ => .error (unexpected "unit" lexeme)
  | [] => .error (.invalidText .endInValue)

/-- A value that may be null. -/
def option (read : Reader α) : Reader (Option α)
  | .null :: rest => .ok (none, rest)
  | .brokenNull fault :: _ => .error (.invalidText fault)
  | lexemes => do
      let (value, rest) ← read lexemes
      return (some value, rest)

/-- The colon after a member's name. -/
def colon : List Lexeme → Except Problem (List Lexeme)
  | .colon :: rest => .ok rest
  | _ :: _ => .error (.invalidText .expectedColon)
  | [] => .error (.invalidText .endInObject)

/-- The name of a variant where it is the name of a member. -/
def variantName : Reader String
  | .string reading :: rest => content reading rest
  | .closeObject :: _ => .error (.invalidText .expectedValue)
  | _ :: _ => .error (.invalidText .expectedKey)
  | [] => .error (.invalidText .endInObject)

/-- One of several names, written alone or as the only member of an object whose value is null. -/
def choice (variants : List (String × α)) : Reader α
  | .string reading :: rest => do
      let (name, rest) ← content reading rest
      return (← Decode.variant variants name, rest)
  | .openObject :: rest => do
      let (name, rest) ← variantName rest
      let value ← Decode.variant variants name
      let (_, rest) ← unit (← colon rest)
      match rest with
      | .closeObject :: rest => return (value, rest)
      | _ :: _ => throw (.invalidText .expectedValue)
      | [] => throw (.invalidText .endInObject)
  | _ :: _ => .error (.invalidText .expectedValue)
  | [] => .error (.invalidText .endInValue)

/-- The name of the next member of an object, or nothing at the object's end. -/
def nextName (isFirst : Bool) : Reader (Option String)
  | .closeObject :: rest => .ok (none, rest)
  | .string reading :: rest =>
      if isFirst then do
        let (name, rest) ← content reading rest
        return (some name, rest)
      else .error (.invalidText .expectedObjectEnd)
  | .comma :: rest =>
      if isFirst then .error (.invalidText .expectedKey)
      else
        match rest with
        | .string reading :: rest => do
            let (name, rest) ← content reading rest
            return (some name, rest)
        | .closeObject :: _ => .error (.invalidText .trailingComma)
        | _ :: _ => .error (.invalidText .expectedKey)
        | [] => .error (.invalidText .endInValue)
  | _ :: _ => .error (.invalidText (if isFirst then .expectedKey else .expectedObjectEnd))
  | [] => .error (.invalidText .endInObject)

/-- The members of an object that has been opened. `member` reads what follows a member's name,
from the colon on, and adds it to what has been read; `bound` exceeds the number of members. -/
def members (member : σ → String → Reader σ) : (bound : Nat) → (isFirst : Bool) → σ → Reader σ
  | 0, _, _, _ => .error (.invalidText .endInObject)
  | bound + 1, isFirst, state, lexemes => do
      match ← nextName isFirst lexemes with
      | (none, rest) => return (state, rest)
      | (some name, rest) =>
          let (state, rest) ← member state name rest
          members member bound false state rest

/-- All members of an object that has been opened. -/
def allMembers (member : σ → String → Reader σ) (initial : σ) : Reader σ := fun lexemes =>
  members member (lexemes.length + 1) true initial lexemes

/-- The value of a member, from the colon on. -/
def memberValue (read : Reader α) : Reader α := fun lexemes => do
  read (← colon lexemes)

/-- The next item of a list that has been opened, as the field with an index of a record. -/
def item (index : Nat) (record : String) (read : Reader α) : Reader α
  | .closeList :: _ => .error (.wrongLength index record)
  | .comma :: rest =>
      if index = 0 then read (.comma :: rest)
      else
        match rest with
        | .closeList :: _ => .error (.invalidText .trailingComma)
        | [] => .error (.invalidText .endInValue)
        | _ => read rest
  | [] => .error (.invalidText .endInList)
  | lexemes => if index = 0 then read lexemes else .error (.invalidText .expectedListEnd)

/-- The end of a list after the last field of a record. -/
def itemsEnd : List Lexeme → Except Problem (List Lexeme)
  | .closeList :: rest => .ok rest
  | .comma :: .closeList :: _ => .error (.invalidText .trailingComma)
  | _ :: _ => .error (.invalidText .trailingText)
  | [] => .error (.invalidText .endInList)

/-- Reads a whole text. -/
def text (read : Reader α) (source : String) : Except Problem α := do
  let (value, rest) ← read (Lexeme.ofText source)
  if rest.isEmpty then return value else throw (.invalidText .trailingText)

end Reader

end TreeLint.Json
