/-!
# Faults of JSON texts

Why a text is no JSON text. A reader reports the first fault it meets.
-/

namespace TreeLint.Json

/-- A reason why a text is no JSON text. -/
inductive Fault where
  | endInValue | endInString | endInList | endInObject
  | expectedColon | expectedListEnd | expectedObjectEnd
  | expectedLiteral | expectedValue | expectedKey
  | invalidEscape | invalidNumber | numberTooLarge
  | controlCharacter | loneSurrogate | unfinishedPair
  | trailingComma | trailingText
deriving Repr, DecidableEq

def Fault.message : Fault → String
  | .endInValue => "EOF while parsing a value"
  | .endInString => "EOF while parsing a string"
  | .endInList => "EOF while parsing a list"
  | .endInObject => "EOF while parsing an object"
  | .expectedColon => "expected `:`"
  | .expectedListEnd => "expected `,` or `]`"
  | .expectedObjectEnd => "expected `,` or `\x7d`"
  | .expectedLiteral => "expected ident"
  | .expectedValue => "expected value"
  | .expectedKey => "key must be a string"
  | .invalidEscape => "invalid escape"
  | .invalidNumber => "invalid number"
  | .numberTooLarge => "number out of range"
  | .controlCharacter => "control character (\\u0000-\\u001F) found while parsing a string"
  | .loneSurrogate => "lone leading surrogate in hex escape"
  | .unfinishedPair => "unexpected end of hex escape"
  | .trailingComma => "trailing comma"
  | .trailingText => "trailing characters"

end TreeLint.Json
