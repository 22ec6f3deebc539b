import TreeLint.Text.Quoted
import TreeLint.Version.Basic

/-!
# Reading versions

The text of a version is three numbers with dots between them, then possibly a hyphen with the
segments of a pre-release and a plus sign with the segments of the build metadata. Numbers have no
leading zeros, nor have numeric pre-release segments; no segment is empty.
-/

namespace TreeLint.Version

/-- A part of a version. -/
inductive Part where
  | major | minor | patch | preRelease | build
deriving Repr, DecidableEq

/-- What messages call a part. -/
def Part.name : Part → String
  | .major => "major version number"
  | .minor => "minor version number"
  | .patch => "patch version number"
  | .preRelease => "pre-release identifier"
  | .build => "build metadata"

/-- Why a text is no version. -/
inductive Fault where
  | empty
  | ended (part : Part)
  | unexpected (part : Part) (c : Char)
  | unexpectedAfter (part : Part) (c : Char)
  | leadingZero (part : Part)
  | tooLarge (part : Part)
  | emptySegment (part : Part)
deriving Repr, DecidableEq

def Fault.message : Fault → String
  | .empty => "empty string, expected a semver version"
  | .ended part => s!"unexpected end of input while parsing {part.name}"
  | .unexpected part c =>
      s!"unexpected character {Text.quotedChar c} while parsing {part.name}"
  | .unexpectedAfter part c => s!"unexpected character {Text.quotedChar c} after {part.name}"
  | .leadingZero part => s!"invalid leading zero in {part.name}"
  | .tooLarge part => s!"value of {part.name} exceeds u64::MAX"
  | .emptySegment part => s!"empty identifier segment in {part.name}"

/-- The largest number a part may have. -/
def maxNumber : Nat := Nat.pow 2 64 - 1

/-- The number that decimal digits write. -/
def valueOf (digits : List Char) : Nat :=
  digits.foldl (fun value c => value * 10 + (c.toNat - '0'.toNat)) 0

/-- Reads a number; gives it and the text after it. -/
def readNumber (part : Part) (cs : List Char) : Except Fault (Nat × List Char) :=
  let digits := cs.takeWhile Char.isDigit
  let rest := cs.dropWhile Char.isDigit
  match digits, rest with
  | [], [] => .error (.ended part)
  | [], c :: _ => .error (.unexpected part c)
  | '0' :: _ :: _, _ => .error (.leadingZero part)
  | _, _ =>
      if maxNumber < valueOf digits then .error (.tooLarge part) else .ok (valueOf digits, rest)

/-- Reads the dot after a number. -/
def readDot (part : Part) : List Char → Except Fault (List Char)
  | [] => .error (.ended part)
  | c :: cs => if c = '.' then .ok cs else .error (.unexpectedAfter part c)

/-- Characters of segments. -/
def isSegmentChar (c : Char) : Bool :=
  c.isAlphanum || c == '-'

/-- A complete segment. -/
def segment (part : Part) (characters : List Char) : Except Fault String :=
  match characters with
  | [] => .error (.emptySegment part)
  | first :: others =>
      if part = .preRelease ∧ first = '0' ∧ others ≠ [] ∧ others.all Char.isDigit then
        .error (.leadingZero part)
      else .ok (.ofList characters)

/-- Reads segments with dots between them, after the segments and the beginning of a segment that
have been read; gives the segments and the text after them. -/
def readSegments (part : Part) (segments : List String) (current : List Char) :
    List Char → Except Fault (List String × List Char)
  | [] => do return (segments ++ [← segment part current], [])
  | c :: cs =>
      if isSegmentChar c then readSegments part segments (current ++ [c]) cs
      else do
        let segments := segments ++ [← segment part current]
        if c = '.' then readSegments part segments [] cs else return (segments, c :: cs)

/-- Reads the segments after a mark, if the mark is there; gives the part read last. -/
def readMarked (mark : Char) (part last : Part) (cs : List Char) :
    Except Fault (List String × Part × List Char) :=
  match cs with
  | [] => .ok ([], last, [])
  | c :: rest =>
      if c = mark then do
        let (segments, rest) ← readSegments part [] [] rest
        return (segments, part, rest)
      else .ok ([], last, cs)

/-- Reads a version from characters. -/
def readChars (cs : List Char) : Except Fault Version := do
  let (major, cs) ← readNumber .major cs
  let (minor, cs) ← readNumber .minor (← readDot .major cs)
  let (patch, cs) ← readNumber .patch (← readDot .minor cs)
  let (preRelease, last, cs) ← readMarked '-' .preRelease .patch cs
  let (build, last, cs) ← readMarked '+' .build last cs
  match cs with
  | [] => return ⟨major, minor, patch, preRelease, build⟩
  | c :: _ => throw (.unexpectedAfter last c)

def read (text : String) : Except Fault Version :=
  if text.isEmpty then .error .empty else readChars text.toList

end TreeLint.Version
