/-!
# Message templates

A template is a text with placeholders: an argument's index between braces. Filling it replaces
every placeholder whose index names an argument and keeps all other text. A brace that opens no
such placeholder stands for itself, and the text after it is read afresh; inserted arguments are
not read again.
-/

namespace TreeLint.Text

/-- The largest index a placeholder may name. -/
def maxIndex : Nat := Nat.pow 2 64 - 1

/-- The number a non-empty list of decimal digits writes. -/
def digits? (cs : List Char) : Option Nat :=
  if cs.isEmpty || !cs.all Char.isDigit then none
  else some (cs.foldl (fun value c => value * 10 + (c.toNat - '0'.toNat)) 0)

/-- Reads a placeholder's index: decimal digits after an optional plus sign. -/
def index? (cs : List Char) : Option Nat :=
  let digits := match cs with
    | '+' :: rest => rest
    | _ => cs
  (digits? digits).filter (· ≤ maxIndex)

/-- The argument that the text after an opening brace names, with the size of the rest of the
placeholder: the index and the closing brace. -/
def placeholder? (args : List String) (cs : List Char) : Option (String × Nat) := do
  let index := cs.takeWhile (· != '\x7d')
  guard (index.length < cs.length)
  let argument ← args[← index? index]?
  return (argument, index.length + 1)

/-- Fills a template given as characters, of which the first `skipped` belong to a placeholder that
has been replaced. -/
def fillChars (args : List String) : (skipped : Nat) → List Char → List Char
  | _, [] => []
  | skipped + 1, _ :: cs => fillChars args skipped cs
  | 0, c :: cs =>
      if c = '\x7b' then
        match placeholder? args cs with
        | some (argument, size) => argument.toList ++ fillChars args size cs
        | none => c :: fillChars args 0 cs
      else c :: fillChars args 0 cs

/-- Fills the placeholders of a template with the arguments they name. -/
def fill (template : String) (args : List String) : String :=
  String.ofList (fillChars args 0 template.toList)

end TreeLint.Text
