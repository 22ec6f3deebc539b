import TreeLint.Text.VisibleTable

/-!
# Quoted text

Texts and characters as messages quote them: between quotation marks, with the mark itself, the
backslash, line ends and all characters that would not be seen on their own written as escapes.
-/

namespace TreeLint.Text

/-- Whether the character combines with the one before it. -/
def isCombining (c : Char) : Bool :=
  withinBoundaries combiningBoundaries c.toNat

/-- Whether the character has a visible form of its own. -/
def isVisible (c : Char) : Bool :=
  !withinBoundaries invisibleBoundaries c.toNat

/-- The escape that names a character by its code point in hexadecimal. -/
def codeEscape (c : Char) : List Char :=
  ['\\', 'u', '\x7b'] ++ Nat.toDigits 16 c.toNat ++ ['\x7d']

/-- One character of a text quoted with `mark`. -/
def quoteChar (mark c : Char) : List Char :=
  if c = '\x00' then ['\\', '0']
  else if c = '\t' then ['\\', 't']
  else if c = '\r' then ['\\', 'r']
  else if c = '\n' then ['\\', 'n']
  else if c = '\\' then ['\\', '\\']
  else if c = mark then ['\\', mark]
  else if isCombining c || !isVisible c then codeEscape c
  else [c]

/-- A text between double quotation marks. -/
def quoted (text : String) : String :=
  String.ofList ('"' :: text.toList.flatMap (quoteChar '"') ++ ['"'])

/-- A character between single quotation marks. -/
def quotedChar (c : Char) : String :=
  String.ofList ('\'' :: quoteChar '\'' c ++ ['\''])

end TreeLint.Text
