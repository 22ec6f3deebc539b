import Mathlib.Data.List.Basic
import TreeLint.Proofs.Text.Positions
import TreeLint.Text.Span

/-!
# Searching the lines of a text

The line of an offset can be searched by halving the table of line starts, which finds the offset
among them or tells where it would have to be inserted. The search never leaves the table, and for
the line map of any text it finds the line that a walk over all lines comes to
(`TreeLint.Text.LineMap.linePart?_eq`). Where the offset falls between two characters of this
text, the bytes in front of it in its line can be cut out of the text
(`TreeLint.Text.LineMap.guardedPosition?_ofText`).
-/

namespace TreeLint.Text

/-- What a search in a table says about a key: the index where it is, or the one where it would have
to be inserted. -/
inductive Lookup where
  | found (index : Nat)
  | missing (index : Nat)

/-- Halves the part of a table that begins at an index and has a size, as long as it has more than
one entry. Absent when the search leaves the table. -/
def narrow? (table : List Nat) (key base size : Nat) : Option Nat :=
  if 1 < size then do
    let entry ← table[base + size / 2]?
    narrow? table key (if key < entry then base else base + size / 2) (size - size / 2)
  else some base
termination_by size

/-- Searches a table in ascending order for a key by halving. -/
def search? (table : List Nat) (key : Nat) : Option Lookup :=
  match table.length with
  | 0 => some (.missing 0)
  | size + 1 => do
      let index ← narrow? table key 0 (size + 1)
      let entry ← table[index]?
      return if entry = key then .found index
        else .missing (index + if entry < key then 1 else 0)

/-- The last entry of a table that does not exceed a key, at its index. -/
structure Last (table : List Nat) (key index entry : Nat) : Prop where
  listed : table[index]? = some entry
  reached : entry ≤ key
  ends : ∀ next, table[index + 1]? = some next → key < next

section Table

variable {table : List Nat} {key : Nat}

theorem le_of_ascending (ascending : table.Pairwise (· < ·)) {first second entry other : Nat}
    (before : first ≤ second) (listed : table[first]? = some entry)
    (listedToo : table[second]? = some other) : entry ≤ other := by
  obtain ⟨inside, rfl⟩ := List.getElem?_eq_some_iff.mp listed
  obtain ⟨insideToo, rfl⟩ := List.getElem?_eq_some_iff.mp listedToo
  rcases Nat.eq_or_lt_of_le before with rfl | before
  · exact Nat.le_refl _
  · exact Nat.le_of_lt (List.pairwise_iff_getElem.mp ascending _ _ inside insideToo before)

namespace Last

variable {first second entry other : Nat}

/-- The last entry that does not exceed a greater key is not in front. -/
theorem mono (ascending : table.Pairwise (· < ·)) {greater : Nat} (le : key ≤ greater)
    (former : Last table key first entry) (latter : Last table greater second other) :
    first ≤ second := by
  by_contra behind
  have inside := (List.getElem?_eq_some_iff.mp former.listed).1
  have listed : table[second + 1]? = some table[second + 1] := List.getElem?_eq_getElem (by omega)
  have beyond := latter.ends _ listed
  have reached := le_of_ascending ascending (Nat.lt_of_not_le behind) listed former.listed
  have within := former.reached
  omega

/-- In a table in ascending order there is only one such entry. -/
theorem unique (ascending : table.Pairwise (· < ·)) (former : Last table key first entry)
    (latter : Last table key second other) : first = second ∧ entry = other := by
  have same : first = second := Nat.le_antisymm
    (former.mono ascending (Nat.le_refl key) latter)
    (latter.mono ascending (Nat.le_refl key) former)
  subst same
  exact ⟨rfl, Option.some.inj (former.listed.symm.trans latter.listed)⟩

end Last

/-- Each half that is kept begins with an entry that does not exceed the key, and what comes behind
it does. -/
theorem narrow?_last (ascending : table.Pairwise (· < ·)) {base size entry : Nat} (wide : 0 < size)
    (inside : base + size ≤ table.length) (listed : table[base]? = some entry)
    (reached : entry ≤ key) (ends : ∀ next, table[base + size]? = some next → key < next) :
    ∃ index last, narrow? table key base size = some index ∧ Last table key index last := by
  induction size using Nat.strong_induction_on generalizing base entry with
  | h size ih =>
      rw [narrow?]
      by_cases more : 1 < size
      · have within : base + size / 2 < table.length := by omega
        have listedToo := List.getElem?_eq_getElem within
        rw [if_pos more, listedToo]
        change ∃ index last, narrow? table key
          (if key < table[base + size / 2] then base else base + size / 2) (size - size / 2) =
            some index ∧ Last table key index last
        by_cases below : key < table[base + size / 2]
        · rw [if_pos below]
          refine ih (size - size / 2) (by omega) (by omega) (by omega) listed reached ?_
          intro next behind
          -- Of an odd number of entries the larger half is kept, so this is the middle or behind it.
          exact Nat.lt_of_lt_of_le below
            (le_of_ascending ascending (by omega) listedToo behind)
        · rw [if_neg below]
          refine ih (size - size / 2) (by omega) (by omega) (by omega) listedToo
            (Nat.le_of_not_lt below) ?_
          intro next behind
          rw [show base + size / 2 + (size - size / 2) = base + size by omega] at behind
          exact ends next behind
      · rw [if_neg more]
        have one : size = 1 := by omega
        subst one
        exact ⟨base, entry, rfl, listed, reached, ends⟩

/-- The index of the last entry that does not exceed the key of a search. -/
def Lookup.last : Lookup → Nat
  | .found index => index
  | .missing index => index - 1

/-- A search in a table in ascending order that begins with an entry that does not exceed the key
comes to the last such entry. -/
theorem search?_last {least : Nat} {later : List Nat}
    (ascending : (least :: later).Pairwise (· < ·)) (reached : least ≤ key) :
    ∃ answer last, search? (least :: later) key = some answer ∧
      Last (least :: later) key answer.last last := by
  have beyond : ∀ next, (least :: later)[0 + (later.length + 1)]? = some next → key < next := by
    intro next listed
    have inside := (List.getElem?_eq_some_iff.mp listed).1
    rw [List.length_cons, Nat.zero_add] at inside
    exact absurd inside (Nat.lt_irrefl _)
  obtain ⟨index, last, narrowed, isLast⟩ := narrow?_last ascending (Nat.succ_pos later.length)
    (Nat.le_of_eq (Nat.zero_add _)) rfl reached beyond
  have searched : search? (least :: later) key =
      some (if last = key then .found index
        else .missing (index + if last < key then 1 else 0)) := by
    rw [search?, List.length_cons]
    dsimp only
    rw [narrowed]
    change (least :: later)[index]?.bind _ = _
    rw [isLast.listed]
    rfl
  refine ⟨_, last, searched, ?_⟩
  by_cases same : last = key
  · rw [if_pos same]
    exact isLast
  · rw [if_neg same, if_pos (Nat.lt_of_le_of_ne isLast.reached same)]
    exact isLast

end Table

theorem pairwise_lineStarts (offset : Nat) (chars : List Char) :
    (offset :: lineStarts offset chars).Pairwise (· < ·) := by
  induction chars generalizing offset with
  | nil => exact List.pairwise_singleton _ _
  | cons c cs ih =>
      refine List.pairwise_cons.mpr ⟨fun start => lt_of_mem_lineStarts, ?_⟩
      rw [lineStarts]
      split
      · exact ih (offset + 1)
      · exact (List.pairwise_cons.mp (ih (offset + c.utf8Size))).2

namespace LineMap

/-- Where the lines of a text start, the first one included. -/
def starts (map : LineMap) : List Nat :=
  0 :: map.laterStarts

/-- The index of the line of an offset, and the bytes of the line in front of the offset. Absent when
the search leaves the table, when it tells an index outside of it, and when the bytes would end in
front of their start. -/
def linePart? (map : LineMap) (offset : Nat) (text : String) : Option (Nat × Span) := do
  let answer ← search? map.starts offset
  let start ← map.starts[answer.last]?
  let part ← Span.ofBounds? start (max (min offset (width text.toList)) start)
  return (answer.last, part)

/-- The position of an offset, found by a search; absent also when the bytes of the line in front of
the offset cannot be cut out of the text. -/
def guardedPosition? (map : LineMap) (offset : Nat) (text : String) : Option Position := do
  let (index, part) ← map.linePart? offset text
  let characters ← slice? text.toList part.start part.stop
  return ⟨index + 1, characters.length + 1⟩

variable {map : LineMap} {offset : Nat}

theorem ascending_ofText (text : String) : (ofText text).starts.Pairwise (· < ·) :=
  pairwise_lineStarts 0 text.toList

/-- A walk over the lines comes to the last one that starts at the offset or in front of it. -/
theorem locate_last {start passed : Nat} {later : List Nat} (reached : start ≤ offset) :
    ∃ index last, locate offset passed start later = (passed + index, last) ∧
      Last (start :: later) offset index last := by
  induction later generalizing start passed with
  | nil =>
      refine ⟨0, start, rfl, rfl, reached, ?_⟩
      intro next listed
      cases listed
  | cons next later ih =>
      rw [locate]
      by_cases further : next ≤ offset
      · obtain ⟨index, last, located, isLast⟩ := @ih next (passed + 1) further
        rw [if_pos further, located]
        exact ⟨index + 1, last, by rw [Nat.add_assoc, Nat.add_comm 1], isLast.listed,
          isLast.reached, isLast.ends⟩
      · rw [if_neg further]
        refine ⟨0, start, rfl, rfl, reached, ?_⟩
        intro other listed
        cases listed
        exact Nat.lt_of_not_le further

/-- The search never leaves the table, and finds the line that the walk comes to. -/
theorem linePart?_eq (ascending : map.starts.Pairwise (· < ·)) (offset : Nat) (text : String) :
    map.linePart? offset text =
      some ((locate offset 0 0 map.laterStarts).1,
        ⟨(locate offset 0 0 map.laterStarts).2,
          max (min offset (width text.toList)) (locate offset 0 0 map.laterStarts).2⟩) := by
  obtain ⟨answer, start, searched, found⟩ := search?_last ascending (Nat.zero_le offset)
  obtain ⟨index, last, located, walked⟩ :=
    @locate_last offset 0 0 map.laterStarts (Nat.zero_le offset)
  obtain ⟨same, rfl⟩ := found.unique ascending walked
  have listed : map.starts[answer.last]? = some start := found.listed
  rw [located, Nat.zero_add, ← same]
  change search? map.starts offset = _ at searched
  unfold linePart?
  rw [searched]
  change map.starts[answer.last]?.bind _ = _
  rw [listed]
  change (Span.ofBounds? start _).bind _ = _
  rw [Span.ofBounds?, if_pos (Nat.le_max_right _ _)]
  rfl

/-- Between the characters of its own text a line map finds positions without leaving any bounds. -/
theorem guardedPosition?_ofText {text : String} {before after : List Char}
    (split : text.toList = before ++ after) :
    (ofText text).guardedPosition? (width before) text =
      some ((ofText text).position (width before) text) := by
  obtain ⟨front, whole, located⟩ := locate_ofText split
  rw [position_ofText split]
  unfold guardedPosition?
  rw [linePart?_eq (ascending_ofText text), located]
  change (slice? text.toList (width front) _).bind _ = _
  dsimp only
  rw [slice?_lastLine split whole]
  rfl

/-- Inside of the umlaut there is no position. -/
example : (ofText "aÖ").guardedPosition? 2 "aÖ" = none := by cbv

end LineMap

end TreeLint.Text
