import TreeLint.Text.Slice

/-!
# Lines and columns

A line map keeps where the lines of a text start and turns byte offsets into positions. Lines and
columns count from one, and columns count characters. A map may be asked about another text than
its own: the answer then still lies on one of the map's lines, and where the bytes from the start
of that line to the offset are no slice of the text they are counted instead of characters.
-/

namespace TreeLint.Text

/-- A line and a column, both counted from one. -/
structure Position where
  line : Nat
  column : Nat
deriving Repr, DecidableEq

/-- Where the lines of a text start. The first line starts at offset zero and is not listed. -/
structure LineMap where
  laterStarts : List Nat
deriving Repr, DecidableEq

/-- The offsets right after each line feed of a text that begins at `offset`. -/
def lineStarts : Nat → List Char → List Nat
  | _, [] => []
  | offset, c :: cs =>
      if c = '\n' then (offset + 1) :: lineStarts (offset + 1) cs
      else lineStarts (offset + c.utf8Size) cs

namespace LineMap

def ofText (text : String) : LineMap :=
  ⟨lineStarts 0 text.toList⟩

/-- Walks the line starts up to an offset: the number of lines passed and the start of the last
line that starts at or before the offset. -/
def locate (offset : Nat) : (passed start : Nat) → List Nat → Nat × Nat
  | passed, start, [] => (passed, start)
  | passed, start, next :: later =>
      if next ≤ offset then locate offset (passed + 1) next later else (passed, start)

/-- Position of a byte offset in `text`. An offset beyond the end stands for the end. -/
def position (map : LineMap) (offset : Nat) (text : String) : Position :=
  let (passed, start) := locate offset 0 0 map.laterStarts
  let stop := max (min offset (width text.toList)) start
  let column :=
    match slice? text.toList start stop with
    | some characters => characters.length
    | none => stop - start
  ⟨passed + 1, column + 1⟩

end LineMap

end TreeLint.Text
