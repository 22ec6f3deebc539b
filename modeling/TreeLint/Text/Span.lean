/-!
# Spans

The byte range of a part of a text, from the offset of its first byte to the offset right after
its last byte.
-/

namespace TreeLint

/-- A range of byte offsets. -/
structure Span where
  start : Nat
  stop : Nat
deriving Repr, DecidableEq

namespace Span

/-- The largest byte offset. -/
def maxOffset : Nat := Nat.pow 2 64 - 1

/-- The range between two offsets; absent when they are out of order. -/
def ofBounds? (start stop : Nat) : Option Span :=
  if start ≤ stop then some ⟨start, stop⟩ else none

/-- The range of a number of bytes; absent when it ends beyond the largest offset. -/
def ofLength? (start length : Nat) : Option Span :=
  if start + length ≤ maxOffset then some ⟨start, start + length⟩ else none

/-- Number of bytes in the range. -/
def length (span : Span) : Nat :=
  span.stop - span.start

end Span

end TreeLint
