import TreeLint.Json.Decode
import TreeLint.Text.Lines

/-!
# Locations

Where in a file a finding is: as line and column, and as a range of bytes.
-/

namespace TreeLint

/-- A place in a file. -/
structure Location where
  file : String
  line : Nat
  column : Nat
  endLine : Option Nat
  endColumn : Option Nat
  offset : Nat
  length : Nat
  span : Option Span
deriving Repr, DecidableEq

namespace Location

/-- The location that says nothing. -/
def unknown : Location :=
  ⟨"", 0, 0, none, none, 0, 0, none⟩

/-- A location whose end is not known as line and column; absent when it ends beyond the largest
offset. -/
def of? (file : String) (line column offset length : Nat) : Option Location :=
  (Span.ofLength? offset length).map fun span =>
    ⟨file, line, column, none, none, offset, length, some span⟩

def ofSpan (map : Text.LineMap) (span : Span) (text file : String) : Location :=
  let start := map.position span.start text
  let stop := map.position span.stop text
  ⟨file, start.line, start.column, some stop.line, some stop.column, span.start, span.length,
    some span⟩

/-- The line of a location in a list of findings. -/
def text (location : Location) : String :=
  s!"{location.file}:{location.line}:{location.column}"

def toJson (location : Location) : Json :=
  .object [
    ("file", .string location.file),
    ("line", .natural location.line),
    ("column", .natural location.column),
    ("end_line", .ofOption .natural location.endLine),
    ("end_column", .ofOption .natural location.endColumn),
    ("offset", .natural location.offset),
    ("length", .natural location.length),
    ("span", .ofOption .ofSpan location.span)]

open Json.Decode in
/-- The fields of a location in their declared order. -/
def fields : List Field := [
  field "file" path,
  field "line" natural,
  field "column" natural,
  field "end_line" (option natural),
  field "end_column" (option natural),
  field "offset" natural,
  field "length" natural,
  field "span" (option Json.Decode.span)]

open Json.Decode in
def ofJson (value : Json) : Except Json.Problem Location := do
  let fields ← record "Location" fields value
  return {
    file := ← fields.required "file" path
    line := ← fields.required "line" natural
    column := ← fields.required "column" natural
    endLine := ← fields.optional "end_line" natural
    endColumn := ← fields.optional "end_column" natural
    offset := ← fields.required "offset" natural
    length := ← fields.required "length" natural
    span := ← fields.optional "span" Json.Decode.span }

end Location

end TreeLint
