import TreeLint.Finding.Location
import TreeLint.Proofs.Text.LineSearch
import TreeLint.Proofs.Text.Replacement

/-!
# Positions tell offsets

Between the characters of a text a later offset has a later position
(`TreeLint.Text.Position.behind_before`), and the position tells the offset: it is the start of its
line together with the width of the characters in front of its column
(`TreeLint.Text.LineMap.offset?_behind`). An offset beyond the end has the position of the end
(`TreeLint.Text.LineMap.position_of_beyond`). So the lines and columns of a location tell its bytes
(`TreeLint.Text.LineMap.position_tells_offset`).
-/

namespace TreeLint.Text

/-- An offset that a text can be cut at. -/
def IsBoundary (text : String) (offset : Nat) : Prop :=
  ∃ before, slice? text.toList 0 offset = some before

/-- One position is in front of another one. -/
def Position.Before (first second : Position) : Prop :=
  first.line < second.line ∨ first.line = second.line ∧ first.column < second.column

/-- The offset at a position: the start of the line and the width of the characters in front of the
column. -/
def LineMap.offset? (map : LineMap) (position : Position) (text : String) : Option Nat := do
  let start ← map.starts[position.line - 1]?
  let rest ← dropBytes? text.toList start
  return start + width (rest.take (position.column - 1))

/-! ### Boundaries -/

theorem takeBytes?_eq_some_iff {chars before : List Char} {offset : Nat} :
    takeBytes? chars offset = some before ↔
      ∃ after, chars = before ++ after ∧ offset = width before := by
  constructor
  · intro taken
    induction chars generalizing before offset with
    | nil =>
        cases offset with
        | zero =>
            cases taken
            exact ⟨[], rfl, rfl⟩
        | succ offset => cases taken
    | cons c cs ih =>
        cases offset with
        | zero =>
            cases taken
            exact ⟨c :: cs, rfl, rfl⟩
        | succ offset =>
            rw [takeBytes?] at taken
            split at taken
            · next fits =>
                obtain ⟨more, takenToo, rfl⟩ := Option.map_eq_some_iff.mp taken
                obtain ⟨after, rfl, rest⟩ := ih takenToo
                refine ⟨after, rfl, ?_⟩
                rw [width_cons, ← rest]
                omega
            · cases taken
  · rintro ⟨after, rfl, rfl⟩
    exact takeBytes?_append before after

theorem slice?_zero (chars : List Char) (offset : Nat) :
    slice? chars 0 offset = takeBytes? chars offset := by
  unfold slice?
  rw [dropBytes?.eq_def]
  rfl

/-- A text can be cut behind the characters that it begins with, and nowhere else. -/
theorem isBoundary_iff {text : String} {offset : Nat} :
    IsBoundary text offset ↔
      ∃ before after, text.toList = before ++ after ∧ offset = width before := by
  unfold IsBoundary
  refine exists_congr fun before => ?_
  rw [slice?_zero]
  exact takeBytes?_eq_some_iff

/-- Of two parts that a text begins with, the wider one goes on where the other one ends. -/
theorem exists_more {text : String} {front before after afterToo : List Char}
    (split : text.toList = front ++ after) (splitToo : text.toList = before ++ afterToo)
    (shorter : width front < width before) : ∃ more, more ≠ [] ∧ before = front ++ more := by
  rcases List.append_eq_append_iff.mp (split.symm.trans splitToo) with
    ⟨more, whole, -⟩ | ⟨more, whole, -⟩
  · refine ⟨more, ?_, whole⟩
    rintro rfl
    rw [whole, List.append_nil] at shorter
    exact absurd shorter (Nat.lt_irrefl _)
  · rw [whole, width_append] at shorter
    omega

/-! ### Positions -/

theorem Position.behind_before (before : List Char) {more : List Char} (some : more ≠ []) :
    (behind before).Before (behind (before ++ more)) := by
  unfold behind Before
  dsimp only
  rw [List.count_append]
  by_cases several : '\n' ∈ more
  · have counted := List.count_pos_iff.mpr several
    exact .inl (by omega)
  · have counted := List.count_eq_zero.mpr several
    have longer := List.length_pos_iff.mpr some
    rw [counted, lastLine_append_of_not_mem before several, List.length_append]
    exact .inr ⟨rfl, by omega⟩

theorem le_of_mem_lineStarts {offset start : Nat} {chars : List Char}
    (member : start ∈ lineStarts offset chars) : start ≤ offset + width chars := by
  induction chars generalizing offset with
  | nil => exact absurd member List.not_mem_nil
  | cons c cs ih =>
      rw [width_cons, ← Nat.add_assoc]
      rw [lineStarts] at member
      split at member
      · next feed =>
          have size : c.utf8Size = 1 := by
            rw [feed]
            rfl
          rw [size]
          rcases List.mem_cons.mp member with rfl | later
          · exact Nat.le_add_right _ _
          · exact ih later
      · exact ih member

namespace LineMap

variable {text : String} {offset : Nat}

/-- The walk over the lines tells the index of the line that it comes to. -/
theorem starts_ofText {before after : List Char} (split : text.toList = before ++ after) :
    ∃ front, before = front ++ lastLine before ∧
      (ofText text).starts[before.count '\n']? = some (width front) := by
  obtain ⟨front, whole, located⟩ := locate_ofText split
  obtain ⟨index, last, walked, isLast⟩ :=
    @locate_last (width before) 0 0 (ofText text).laterStarts (Nat.zero_le _)
  rw [located, Nat.zero_add] at walked
  cases walked
  exact ⟨front, whole, isLast.listed⟩

/-- The position behind the first characters of a text tells how wide they are. -/
theorem offset?_behind {before after : List Char} (split : text.toList = before ++ after) :
    (ofText text).offset? (.behind before) text = some (width before) := by
  obtain ⟨front, whole, listed⟩ := starts_ofText split
  have dropped := dropBytes?_append front (lastLine before ++ after)
  rw [← List.append_assoc, ← whole, ← split] at dropped
  have widths := congrArg width whole
  rw [width_append] at widths
  unfold offset? Position.behind
  dsimp only
  rw [Nat.add_sub_cancel, listed]
  change (dropBytes? text.toList (width front)).bind _ = _
  rw [dropped]
  change some (width front + width ((lastLine before ++ after).take _)) = _
  rw [Nat.add_sub_cancel, List.take_left, widths]

theorem offset?_position (boundary : IsBoundary text offset) :
    (ofText text).offset? ((ofText text).position offset text) text = some offset := by
  obtain ⟨before, after, split, rfl⟩ := isBoundary_iff.mp boundary
  rw [position_ofText split]
  exact offset?_behind split

/-- No two boundaries have one position. -/
theorem position_inj {first second : Nat} (boundary : IsBoundary text first)
    (boundaryToo : IsBoundary text second)
    (same : (ofText text).position first text = (ofText text).position second text) :
    first = second := by
  apply Option.some.inj
  rw [← offset?_position boundary, ← offset?_position boundaryToo, same]

theorem position_before {first second : Nat} (boundary : IsBoundary text first)
    (boundaryToo : IsBoundary text second) (before : first < second) :
    ((ofText text).position first text).Before ((ofText text).position second text) := by
  obtain ⟨front, after, split, rfl⟩ := isBoundary_iff.mp boundary
  obtain ⟨longer, afterToo, splitToo, rfl⟩ := isBoundary_iff.mp boundaryToo
  obtain ⟨more, some, rfl⟩ := exists_more split splitToo before
  rw [position_ofText split, position_ofText splitToo]
  exact Position.behind_before front some

/-- Offsets from some limit on are in the same line when no line starts behind the limit. -/
theorem locate_of_beyond {limit passed start : Nat} {later : List Nat} (beyond : limit ≤ offset)
    (inside : ∀ next ∈ later, next ≤ limit) :
    locate offset passed start later = locate limit passed start later := by
  induction later generalizing passed start with
  | nil => rfl
  | cons next later ih =>
      have reached := inside next List.mem_cons_self
      rw [locate, locate, if_pos reached, if_pos (reached.trans beyond)]
      exact ih fun other member => inside other (List.mem_cons_of_mem _ member)

/-- Beyond the end of a text all offsets are in its last line. -/
theorem locate_of_width_le (beyond : width text.toList ≤ offset) :
    locate offset 0 0 (ofText text).laterStarts =
      locate (width text.toList) 0 0 (ofText text).laterStarts := by
  refine locate_of_beyond beyond fun start member => ?_
  have reached := le_of_mem_lineStarts member
  rwa [Nat.zero_add] at reached

theorem position_of_beyond (beyond : width text.toList ≤ offset) :
    (ofText text).position offset text = (ofText text).position (width text.toList) text := by
  unfold position
  rw [locate_of_width_le beyond, Nat.min_eq_right beyond, Nat.min_self]

theorem guardedPosition?_of_beyond (beyond : width text.toList ≤ offset) :
    (ofText text).guardedPosition? offset text = some ((ofText text).position offset text) := by
  have whole : text.toList = text.toList ++ [] := (List.append_nil _).symm
  have same : (ofText text).guardedPosition? offset text =
      (ofText text).guardedPosition? (width text.toList) text := by
    unfold guardedPosition?
    rw [linePart?_eq (ascending_ofText text), linePart?_eq (ascending_ofText text),
      locate_of_width_le beyond, Nat.min_eq_right beyond, Nat.min_self]
  rw [same, guardedPosition?_ofText whole, position_of_beyond beyond]

/-- The search for the line of an offset never leaves any bounds. Between the characters of a text
the position counts the line feeds in front and the characters behind the last one of them, a later
offset has a later position, and the start of the line and the characters in front of the column
give the offset back; so the lines and columns of a location tell which bytes it is about. Beyond the
end the position is the one of the end. -/
theorem position_tells_offset (text : String) :
    let map := ofText text
    (∀ offset before, slice? text.toList 0 offset = some before →
      map.guardedPosition? offset text = some (map.position offset text) ∧
        map.position offset text = ⟨1 + before.count '\n', 1 + (lastLine before).length⟩) ∧
    (∀ first second, IsBoundary text first → IsBoundary text second → first < second →
      (map.position first text).Before (map.position second text)) ∧
    (∀ offset, IsBoundary text offset →
      map.offset? (map.position offset text) text = some offset) ∧
    (∀ (first second : Span) (file fileToo : String),
      IsBoundary text first.start → IsBoundary text first.stop →
      IsBoundary text second.start → IsBoundary text second.stop →
      let former := Location.ofSpan map first text file
      let latter := Location.ofSpan map second text fileToo
      former.line = latter.line → former.column = latter.column →
      former.endLine = latter.endLine → former.endColumn = latter.endColumn →
      former.offset = latter.offset ∧ former.length = latter.length) ∧
    (∀ offset, width text.toList ≤ offset →
      map.guardedPosition? offset text = some (map.position offset text) ∧
        map.position offset text = map.position (width text.toList) text) := by
  intro map
  refine ⟨?behind, fun first second => position_before, fun offset => offset?_position, ?places,
    fun offset beyond => ⟨guardedPosition?_of_beyond beyond, position_of_beyond beyond⟩⟩
  case behind =>
    intro offset before sliced
    rw [slice?_zero] at sliced
    obtain ⟨after, split, rfl⟩ := takeBytes?_eq_some_iff.mp sliced
    refine ⟨guardedPosition?_ofText split, ?_⟩
    rw [position_ofText split, Nat.add_comm 1, Nat.add_comm 1]
    rfl
  case places =>
    intro first second file fileToo starts stops startsToo stopsToo former latter line column
      endLine endColumn
    have sameStart : first.start = second.start :=
      position_inj starts startsToo (congrArg₂ Position.mk line column)
    have sameStop : first.stop = second.stop :=
      position_inj stops stopsToo
        (congrArg₂ Position.mk (Option.some.inj endLine) (Option.some.inj endColumn))
    refine ⟨sameStart, ?_⟩
    change first.stop - first.start = second.stop - second.start
    rw [sameStart, sameStop]

/-- The umlaut takes two bytes and one column, and the last line is empty. -/
theorem position_tells_offset_umlaut :
    let text := "a\nÖb\n"
    let map := ofText text
    map.guardedPosition? 4 text = some ⟨2, 2⟩ ∧ map.offset? ⟨2, 2⟩ text = some 4 ∧
      (map.position 2 text).Before (map.position 4 text) ∧ map.position 9 text = ⟨3, 1⟩ := by
  intro text map
  obtain ⟨behind, ascending, inverse, -, beyond⟩ := position_tells_offset text
  have line : IsBoundary text 2 := ⟨['a', '\n'], by decide⟩
  have boundary : IsBoundary text 4 := ⟨['a', '\n', 'Ö'], by decide⟩
  have found := behind 4 ['a', '\n', 'Ö'] (by decide)
  have place : map.position 4 text = ⟨2, 2⟩ := found.2
  refine ⟨found.1.trans (congrArg some place), ?_, ?_, ?_⟩
  · rw [← place]
    exact inverse 4 boundary
  · exact ascending 2 4 line boundary (by decide)
  · exact (beyond 9 (by decide)).2.trans (by decide)

end LineMap

end TreeLint.Text
