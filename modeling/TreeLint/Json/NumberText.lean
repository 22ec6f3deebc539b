import TreeLint.Json.Fault
import TreeLint.Json.Value

/-!
# Numbers in JSON texts

The stages of reading a number, one character at a time, and the value of the digits that were
read. Digits that no longer fit into 64 bits are left out and only their number counts.
-/

namespace TreeLint.Json

/-- How far a number has been read: which part the last character belongs to. -/
inductive NumberStage where
  | sign | zero | integer | point | fraction | exponent | exponentSign | exponentDigits
deriving Repr, DecidableEq

/-- The digits of a number read so far. -/
structure NumberText where
  negative : Bool
  integer : List Char
  fraction : List Char
  exponentNegative : Bool
  exponent : List Char
deriving Repr, DecidableEq

/-- What a character does to a number that is being read: it continues the number, it stands after
the number's end, or it makes the number invalid. -/
inductive NumberStep where
  | go (stage : NumberStage) (digits : NumberText)
  | done
  | refuse

/-- Whether a number may end at this stage. -/
def NumberStage.isComplete : NumberStage → Bool
  | .zero | .integer | .fraction | .exponentDigits => true
  | .sign | .point | .exponent | .exponentSign => false

namespace NumberText

/-- A number of which at most a minus sign has been read. -/
def start (negative : Bool) : NumberText :=
  ⟨negative, [], [], false, []⟩

/-- What the next character does to a number. -/
def next (digits : NumberText) (stage : NumberStage) (c : Char) : NumberStep :=
  let point := NumberStep.go .point digits
  let exponent := NumberStep.go .exponent digits
  let integerDigit stage := NumberStep.go stage { digits with integer := digits.integer ++ [c] }
  let fractionDigit := NumberStep.go .fraction { digits with fraction := digits.fraction ++ [c] }
  let exponentDigit :=
    NumberStep.go .exponentDigits { digits with exponent := digits.exponent ++ [c] }
  match stage with
  | .sign =>
      if c = '0' then integerDigit .zero
      else if c.isDigit then integerDigit .integer
      else .refuse
  | .zero =>
      if c.isDigit then .refuse
      else if c = '.' then point
      else if c = 'e' ∨ c = 'E' then exponent
      else .done
  | .integer =>
      if c.isDigit then integerDigit .integer
      else if c = '.' then point
      else if c = 'e' ∨ c = 'E' then exponent
      else .done
  | .point => if c.isDigit then fractionDigit else .refuse
  | .fraction =>
      if c.isDigit then fractionDigit
      else if c = 'e' ∨ c = 'E' then exponent
      else .done
  | .exponent =>
      if c = '+' then .go .exponentSign digits
      else if c = '-' then .go .exponentSign { digits with exponentNegative := true }
      else if c.isDigit then exponentDigit
      else .refuse
  | .exponentSign => if c.isDigit then exponentDigit else .refuse
  | .exponentDigits => if c.isDigit then exponentDigit else .done

/-- The largest integer that is not read as a double precision number. -/
def maxInteger : Nat := Nat.pow 2 64 - 1

/-- The largest magnitude of a negative integer that is not read as a double precision number. -/
def maxNegative : Nat := Nat.pow 2 63

/-- The largest exponent that is counted. -/
def maxExponent : Nat := Nat.pow 2 31 - 1

def digitValue (c : Char) : Nat :=
  c.toNat - '0'.toNat

/-- Appends digits to a number as long as it does not exceed `limit`; gives the number and the
digits left out. -/
def accumulate (limit : Nat) : (value : Nat) → List Char → Nat × List Char
  | value, [] => (value, [])
  | value, c :: cs =>
      let longer := value * 10 + digitValue c
      if longer ≤ limit then accumulate limit longer cs else (value, c :: cs)

/-- The number that the digits write, as an exact double precision reading. -/
def real (digits : NumberText) : Except Fault Number :=
  let (whole, dropped) := accumulate maxInteger 0 digits.integer
  let (significand, unread) := accumulate maxInteger whole digits.fraction
  let places := digits.fraction.length - unread.length
  let (exponent, beyond) := accumulate maxExponent 0 digits.exponent
  let shift : Int := if digits.exponentNegative then -(exponent : Int) else exponent
  let power : Int := (dropped.length : Int) - places + shift
  if beyond ≠ [] then
    if significand ≠ 0 ∧ digits.exponentNegative = false then .error .numberTooLarge
    else .ok (.real digits.negative .zero)
  else
    match Binary64.ofDecimal? significand power with
    | some magnitude => .ok (.real digits.negative magnitude)
    | none => .error .numberTooLarge

/-- The value of a complete number. -/
def value (digits : NumberText) : Except Fault Number :=
  let (whole, dropped) := accumulate maxInteger 0 digits.integer
  if dropped ≠ [] ∨ digits.fraction ≠ [] ∨ digits.exponent ≠ [] then digits.real
  else if digits.negative = false then .ok (.integer whole)
  else if whole = 0 ∨ maxNegative < whole then digits.real
  else .ok (.integer (-whole))

end NumberText

end TreeLint.Json
