import TreeLint.Json.NumberText
import TreeLint.Text.Slice

/-!
# Lexemes of JSON texts

The first stage of reading: a text is cut into lexemes, one character at a time. A number or
string may be readable when its value is skipped and yet have a fault when the value is used, so
it carries both readings. The lexemes end where the text cannot be cut any further.
-/

namespace TreeLint.Json

/-- What a lexeme gives to a reader who uses its value, and to one who skips it. -/
structure Reading (α : Type) where
  used : Except Fault α
  skipped : Except Fault Unit

/-- A piece of a JSON text. -/
inductive Lexeme where
  | openList | closeList | openObject | closeObject | comma | colon
  | null
  | bool (value : Bool)
  | number (reading : Reading Number)
  | string (reading : Reading String)
  | brokenNull (fault : Fault)
  | brokenBool (fault : Fault)
  | stray (c : Char)

/-- What is left of a literal that is misspelled or ends too early. -/
def Lexeme.broken (literal : Lexeme) (fault : Fault) : Lexeme :=
  match literal with
  | .null => .brokenNull fault
  | _ => .brokenBool fault

/-- A string being read: the characters used so far, the last of them first, and the first half
of a pair of surrogates that waits for the second. -/
structure StringText where
  used : Except Fault (List Char)
  pending : Option Nat

/-- Where in a string the next character stands: among plain characters, after a backslash, or
among the hexadecimal digits of an escape, of which some have been read. -/
inductive StringStage where
  | plain
  | escape
  | code (digits : List Char)

/-- What is being read. -/
inductive Mode where
  | between
  | literal (rest : List Char) (lexeme : Lexeme)
  | number (stage : NumberStage) (digits : NumberText)
  | string (stage : StringStage) (text : StringText)

/-- The lexemes a character completes, and what is read next; nothing is read next after a
character that cannot be read. -/
abbrev Cut := List Lexeme × Option Mode

namespace StringText

/-- A string of which nothing has been read. -/
def start : StringText :=
  ⟨.ok [], none⟩

/-- Adds a character. -/
def push (text : StringText) (c : Char) : StringText :=
  { text with used := text.used.map (c :: ·) }

/-- Records a fault of the value, unless there is an earlier one. -/
def fail (text : StringText) (fault : Fault) : StringText :=
  ⟨text.used.bind fun _ => .error fault, none⟩

/-- Records that a pair of surrogates is left unfinished, if one is pending. -/
def leavePair (text : StringText) : StringText :=
  match text.pending with
  | none => text
  | some _ => text.fail .unfinishedPair

/-- The lexeme of a string that has ended. -/
def lexeme (text : StringText) : Lexeme :=
  .string ⟨text.used.map fun characters => .ofList characters.reverse, .ok ()⟩

/-- The lexeme of a string that cannot be read on. -/
def brokenLexeme (text : StringText) (fault : Fault) : Lexeme :=
  .string ⟨text.used.bind fun _ => .error fault, .error fault⟩

/-- Whether a code unit is the first half of a pair of surrogates. -/
def isFirstHalf (unit : Nat) : Bool :=
  0xD800 ≤ unit && unit ≤ 0xDBFF

/-- Whether a code unit is the second half of a pair of surrogates. -/
def isSecondHalf (unit : Nat) : Bool :=
  0xDC00 ≤ unit && unit ≤ 0xDFFF

/-- Adds the code unit of an escape. -/
def pushUnit (text : StringText) (unit : Nat) : StringText :=
  match text.pending with
  | some first =>
      if isSecondHalf unit then
        { text.push (Char.ofNat ((first - 0xD800) * 1024 + (unit - 0xDC00) + 0x10000)) with
          pending := none }
      else text.fail .loneSurrogate
  | none =>
      if isSecondHalf unit then text.fail .loneSurrogate
      else if isFirstHalf unit then { text with pending := some unit }
      else text.push (Char.ofNat unit)

end StringText

/-- The value of a hexadecimal digit. -/
def hexValue? (c : Char) : Option Nat :=
  if c.isDigit then some (c.toNat - '0'.toNat)
  else if 'a' ≤ c ∧ c ≤ 'f' then some (c.toNat - 'a'.toNat + 10)
  else if 'A' ≤ c ∧ c ≤ 'F' then some (c.toNat - 'A'.toNat + 10)
  else none

/-- The code unit that four hexadecimal digits write. -/
def codeUnit? (digits : List Char) : Option Nat :=
  if digits.length = 4 then
    digits.foldlM (fun value c => (hexValue? c).map (value * 16 + ·)) 0
  else none

/-- The character that an escape of one letter stands for. -/
def escaped? (c : Char) : Option Char :=
  if c = '"' ∨ c = '\\' ∨ c = '/' then some c
  else if c = 'b' then some '\x08'
  else if c = 'f' then some '\x0c'
  else if c = 'n' then some '\n'
  else if c = 'r' then some '\r'
  else if c = 't' then some '\t'
  else none

def isBlank (c : Char) : Bool :=
  c == ' ' || c == '\n' || c == '\t' || c == '\r'

namespace Mode

/-- A character that does not belong to the lexeme before it. -/
def start (c : Char) : Cut :=
  if isBlank c then ([], some .between)
  else if c = '[' then ([.openList], some .between)
  else if c = ']' then ([.closeList], some .between)
  else if c = '\x7b' then ([.openObject], some .between)
  else if c = '\x7d' then ([.closeObject], some .between)
  else if c = ',' then ([.comma], some .between)
  else if c = ':' then ([.colon], some .between)
  else if c = 'n' then ([], some (.literal ['u', 'l', 'l'] .null))
  else if c = 't' then ([], some (.literal ['r', 'u', 'e'] (.bool true)))
  else if c = 'f' then ([], some (.literal ['a', 'l', 's', 'e'] (.bool false)))
  else if c = '"' then ([], some (.string .plain .start))
  else if c = '-' then ([], some (.number .sign (.start true)))
  else
    match (NumberText.start false).next .sign c with
    | .go stage digits => ([], some (.number stage digits))
    | .done | .refuse => ([.stray c], none)

/-- A character of a literal, of which some letters are still expected. -/
def inLiteral (rest : List Char) (lexeme : Lexeme) (c : Char) : Cut :=
  match rest with
  | [] => start c
  | letter :: rest =>
      if c = letter then
        if rest.isEmpty then ([lexeme], some .between) else ([], some (.literal rest lexeme))
      else ([lexeme.broken .expectedLiteral], none)

/-- A character in or right after a number. -/
def inNumber (stage : NumberStage) (digits : NumberText) (c : Char) : Cut :=
  match digits.next stage c with
  | .go stage digits => ([], some (.number stage digits))
  | .done =>
      let (lexemes, next) := start c
      (.number ⟨digits.value, .ok ()⟩ :: lexemes, next)
  | .refuse => ([.number ⟨.error .invalidNumber, .error .invalidNumber⟩], none)

/-- A character of a string. -/
def inString (stage : StringStage) (text : StringText) (c : Char) : Cut :=
  match stage with
  | .plain =>
      if c = '\\' then ([], some (.string .escape text))
      else if c = '"' then ([text.leavePair.lexeme], some .between)
      else if c.toNat < 32 then ([text.leavePair.brokenLexeme .controlCharacter], none)
      else ([], some (.string .plain (text.leavePair.push c)))
  | .escape =>
      if c = 'u' then ([], some (.string (.code []) text))
      else
        match escaped? c with
        | some character => ([], some (.string .plain (text.leavePair.push character)))
        | none => ([text.leavePair.brokenLexeme .invalidEscape], none)
  | .code digits =>
      let digits := digits ++ [c]
      if Text.width digits < 4 then ([], some (.string (.code digits) text))
      else
        match codeUnit? digits with
        | some unit => ([], some (.string .plain (text.pushUnit unit)))
        | none => ([text.brokenLexeme .invalidEscape], none)

/-- Takes one character. -/
def take : Mode → Char → Cut
  | .between, c => start c
  | .literal rest lexeme, c => inLiteral rest lexeme c
  | .number stage digits, c => inNumber stage digits c
  | .string stage text, c => inString stage text c

/-- The lexeme that the end of the text leaves. -/
def atEnd : Mode → List Lexeme
  | .between => []
  | .literal _ lexeme => [lexeme.broken .endInValue]
  | .number stage digits =>
      if stage.isComplete then [.number ⟨digits.value, .ok ()⟩]
      else [.number ⟨.error .endInValue, .error .invalidNumber⟩]
  | .string _ text => [text.brokenLexeme .endInString]

end Mode

/-- Cuts characters into lexemes, going on with what is being read. -/
def Lexeme.cut : Mode → List Char → List Lexeme
  | mode, [] => mode.atEnd
  | mode, c :: cs =>
      let (lexemes, next) := mode.take c
      lexemes ++
        match next with
        | some mode => cut mode cs
        | none => []

def Lexeme.ofText (text : String) : List Lexeme :=
  cut .between text.toList

end TreeLint.Json
