import TreeLint.Proofs.Text.Offsets

/-!
# Line maps asked about another text

A line map can be asked about a text that is not its own: a shorter one, one without any of the
lines, or one in which the offset falls inside of a character. The search for the line does not look
at this text, so the answer is on the line of the map's own text that the offset is in there. The text
decides about the column only, and the column never counts more than the bytes from the start of the
line to the offset (`TreeLint.Text.LineMap.position_within`). No access, length or difference on the
way is out of bounds (`TreeLint.Text.LineMap.foreign_positions`).
-/

namespace TreeLint.Text

/-- The line of a text with an index starts at an offset: in front there are as many lines as the
index tells, each with its line feed, and nothing else. -/
def StartsLine (text : String) (index start : Nat) : Prop :=
  ∃ front rest, text.toList = front ++ rest ∧ lastLine front = [] ∧ front.count '\n' = index ∧
    width front = start

/-- How many columns a part of a text takes: one for each character, or one for each byte where the
part cannot be cut out of the text. -/
def columnsIn (text : String) (part : Span) : Nat :=
  match slice? text.toList part.start part.stop with
  | some characters => characters.length
  | none => part.length

/-! ### Columns -/

theorem length_le_width (chars : List Char) : chars.length ≤ width chars := by
  induction chars with
  | nil => exact Nat.le_refl 0
  | cons c cs ih =>
      have size := c.utf8Size_pos
      rw [List.length_cons, width_cons]
      omega

theorem width_of_slice? {chars part : List Char} {start stop : Nat}
    (cut : slice? chars start stop = some part) : width part = stop - start := by
  obtain ⟨rest, -, taken⟩ := Option.bind_eq_some_iff.mp cut
  obtain ⟨after, -, size⟩ := takeBytes?_eq_some_iff.mp taken
  exact size.symm

theorem columnsIn_le (text : String) (part : Span) : columnsIn text part ≤ part.length := by
  unfold columnsIn
  cases cut : slice? text.toList part.start part.stop with
  | none => exact Nat.le_refl _
  | some characters =>
      calc characters.length ≤ width characters := length_le_width characters
        _ = part.length := width_of_slice? cut

/-- A part that ends inside of an umlaut is counted in bytes from its beginning on. -/
example : columnsIn "aÖ" ⟨0, 3⟩ = 2 ∧ columnsIn "aÖÖ" ⟨0, 4⟩ = 4 := by decide

/-! ### Lines -/

/-- A listed start stands right behind one more line feed than its index tells. -/
theorem exists_front_of_lineStarts {offset index start : Nat} {chars : List Char}
    (listed : (lineStarts offset chars)[index]? = some start) :
    ∃ front rest, chars = front ++ rest ∧ lastLine front = [] ∧ front.count '\n' = index + 1 ∧
      offset + width front = start := by
  induction chars generalizing offset index with
  | nil => cases listed
  | cons c cs ih =>
      rw [lineStarts] at listed
      by_cases feed : c = '\n'
      · subst feed
        rw [if_pos rfl] at listed
        cases index with
        | zero =>
            cases listed
            exact ⟨['\n'], cs, rfl, rfl, rfl, rfl⟩
        | succ index =>
            obtain ⟨front, rest, rfl, closed, counted, size⟩ := ih listed
            have several : '\n' ∈ front := List.count_pos_iff.mp (by omega)
            refine ⟨'\n' :: front, rest, rfl, ?_, ?_, ?_⟩
            · exact (lastLine_append_of_mem ['\n'] several).trans closed
            · rw [List.count_cons_self, counted]
            · rw [← size, width_cons, ← Nat.add_assoc]
              rfl
      · rw [if_neg feed] at listed
        obtain ⟨front, rest, rfl, closed, counted, size⟩ := ih listed
        have several : '\n' ∈ front := List.count_pos_iff.mp (by omega)
        refine ⟨c :: front, rest, rfl, ?_, ?_, ?_⟩
        · exact (lastLine_append_of_mem [c] several).trans closed
        · rw [List.count_cons_of_ne feed, counted]
        · rw [← size, width_cons, Nat.add_assoc]

namespace StartsLine

variable {text : String} {index start : Nat}

theorem index_le (starts : StartsLine text index start) : index ≤ text.toList.count '\n' := by
  obtain ⟨front, rest, split, -, rfl, -⟩ := starts
  rw [split, List.count_append]
  exact Nat.le_add_right _ _

end StartsLine

namespace LineMap

/-- The table of a text lists where its lines start. -/
theorem startsLine_iff {text : String} {index start : Nat} :
    StartsLine text index start ↔ (ofText text).starts[index]? = some start := by
  constructor
  · rintro ⟨front, rest, split, closed, rfl, rfl⟩
    obtain ⟨same, whole, listed⟩ := starts_ofText split
    rw [closed, List.append_nil] at whole
    rwa [← whole] at listed
  · intro listed
    cases index with
    | zero =>
        cases listed
        exact ⟨[], text.toList, rfl, rfl, rfl, rfl⟩
    | succ index =>
        obtain ⟨front, rest, split, closed, counted, size⟩ := exists_front_of_lineStarts listed
        rw [Nat.zero_add] at size
        exact ⟨front, rest, split, closed, counted, size⟩

variable {map : LineMap} {offset : Nat}

/-- The line of a position is the last one that starts at the offset or in front of it, whatever text
the map is asked about. -/
theorem exists_last (map : LineMap) (offset : Nat) (text : String) : ∃ index start,
    Last map.starts offset index start ∧ map.position offset text =
      ⟨index + 1, columnsIn text ⟨start, max (min offset (width text.toList)) start⟩ + 1⟩ := by
  obtain ⟨index, start, located, isLast⟩ :=
    @locate_last offset 0 0 map.laterStarts (Nat.zero_le offset)
  rw [Nat.zero_add] at located
  refine ⟨index, start, isLast, ?_⟩
  unfold position
  rw [located]
  rfl

theorem line_mono (ascending : map.starts.Pairwise (· < ·)) {first second : Nat}
    (le : first ≤ second) (text : String) :
    (map.position first text).line ≤ (map.position second text).line := by
  obtain ⟨index, start, former, place⟩ := exists_last map first text
  obtain ⟨indexToo, startToo, latter, placeToo⟩ := exists_last map second text
  rw [place, placeToo]
  exact Nat.succ_le_succ (former.mono ascending le latter)

/-- The part of a line in front of an offset takes no more columns than there are bytes up to the
offset. -/
theorem columnsIn_line_le {start : Nat} (reached : start ≤ offset) (text : String) :
    columnsIn text ⟨start, max (min offset (width text.toList)) start⟩ ≤ offset - start := by
  refine (columnsIn_le text _).trans ?_
  apply Nat.sub_le_sub_right
  exact max_le (min_le_left _ _) reached

/-- A position is on a line of the map's own text, the last one that starts at the offset or in front
of it, and its column is within the bytes of this line. -/
theorem position_within (own other : String) (offset : Nat) :
    let position := (ofText own).position offset other
    ∃ start, StartsLine own (position.line - 1) start ∧ start ≤ offset ∧
      (∀ next, StartsLine own position.line next → offset < next) ∧
      position.column ≤ 1 + (offset - start) := by
  intro position
  obtain ⟨index, start, isLast, place⟩ := exists_last (ofText own) offset other
  have line : position.line = index + 1 := congrArg Position.line place
  have column : position.column = columnsIn other _ + 1 := congrArg Position.column place
  refine ⟨start, ?_, isLast.reached, ?_, ?_⟩
  · rw [line, Nat.add_sub_cancel]
    exact startsLine_iff.mpr isLast.listed
  · intro next starts
    apply isLast.ends
    rw [← line]
    exact startsLine_iff.mp starts
  · have few := columnsIn_line_le isLast.reached other
    omega

/-! ### Checked steps -/

/-- The position of an offset, with the steps checked that could leave their bounds: absent when the
search leaves the table, when it tells an index outside of it, and when the part of the line in front
of the offset would end in front of its start. -/
def checkedPosition? (map : LineMap) (offset : Nat) (text : String) : Option Position := do
  let (index, part) ← map.linePart? offset text
  return ⟨index + 1, columnsIn text part + 1⟩

theorem checkedPosition?_eq (ascending : map.starts.Pairwise (· < ·)) (offset : Nat)
    (text : String) : map.checkedPosition? offset text = some (map.position offset text) := by
  unfold checkedPosition?
  rw [linePart?_eq ascending]
  rfl

end LineMap

end TreeLint.Text

namespace TreeLint.Location

open Text

/-- The location of a span, absent when one of its ends has no checked position, and when the span
ends in front of its start. -/
def checkedOfSpan? (map : LineMap) (span : Span) (text file : String) : Option Location := do
  let start ← map.checkedPosition? span.start text
  let stop ← map.checkedPosition? span.stop text
  let bytes ← Span.ofBounds? span.start span.stop
  return {
    file
    line := start.line
    column := start.column
    endLine := some stop.line
    endColumn := some stop.column
    offset := span.start
    length := bytes.length
    span := some span }

theorem checkedOfSpan?_eq {map : LineMap} (ascending : map.starts.Pairwise (· < ·)) {span : Span}
    (ordered : span.start ≤ span.stop) (text file : String) :
    checkedOfSpan? map span text file = some (ofSpan map span text file) := by
  unfold checkedOfSpan?
  rw [LineMap.checkedPosition?_eq ascending, LineMap.checkedPosition?_eq ascending,
    Span.ofBounds?, if_pos ordered]
  rfl

end TreeLint.Location

namespace TreeLint.Text.LineMap

/-- **A line map asked about another text.** Whatever the two texts, no step on the way to a position
or a location leaves its bounds. The line is the one that the offset is in in the map's own text, and
a later offset is not on an earlier line; the column is within the bytes from the start of this line
to the offset. The location of a span has the length of the span and does not end above the line that
it starts in. -/
theorem foreign_positions (own other : String) :
    let map := ofText own
    (∀ offset,
      let position := map.position offset other
      map.checkedPosition? offset other = some position ∧
      1 ≤ position.line ∧ position.line ≤ 1 + own.toList.count '\n' ∧
      1 ≤ position.column ∧
      ∃ start, StartsLine own (position.line - 1) start ∧ start ≤ offset ∧
        (∀ next, StartsLine own position.line next → offset < next) ∧
        position.column ≤ 1 + (offset - start)) ∧
    (∀ first second, first ≤ second →
      (map.position first other).line ≤ (map.position second other).line) ∧
    (∀ (span : Span) (file : String), span.start ≤ span.stop →
      let location := Location.ofSpan map span other file
      Location.checkedOfSpan? map span other file = some location ∧
      location.length = span.stop - span.start ∧
      ∃ endLine, location.endLine = some endLine ∧ location.line ≤ endLine) := by
  intro map
  have ascending : map.starts.Pairwise (· < ·) := ascending_ofText own
  refine ⟨?positions, fun first second le => line_mono ascending le other, ?locations⟩
  case positions =>
    intro offset position
    obtain ⟨start, starts, within⟩ := position_within own other offset
    have above := starts.index_le
    change position.line - 1 ≤ _ at above
    refine ⟨checkedPosition?_eq ascending offset other, Nat.le_add_left 1 _, ?_,
      Nat.le_add_left 1 _, start, starts, within⟩
    omega
  case locations =>
    intro span file ordered location
    refine ⟨Location.checkedOfSpan?_eq ascending ordered other file, rfl, _, rfl, ?_⟩
    exact line_mono ascending ordered other

/-- The other text is shorter, and two of the offsets are inside of its umlauts. -/
theorem foreign_positions_umlauts :
    let own := "a\nb\nc\nd\n"
    let map := ofText own
    let location := Location.ofSpan map ⟨2, 5⟩ "ÖÖÖ" "a.cs"
    map.checkedPosition? 3 "ÖÖÖ" = some ⟨2, 2⟩ ∧ (StartsLine own 2 4 ∧ 3 < 4) ∧
      map.checkedPosition? 9 "ÖÖÖ" = some ⟨5, 1⟩ ∧
      (map.position 3 "ÖÖÖ").line ≤ (map.position 9 "ÖÖÖ").line ∧
      Location.checkedOfSpan? map ⟨2, 5⟩ "ÖÖÖ" "a.cs" = some location ∧ location.length = 3 ∧
      (location.line, location.endLine) = (2, some 3) := by
  intro own map location
  obtain ⟨positions, ascending, locations⟩ := foreign_positions own "ÖÖÖ"
  obtain ⟨checked, -, -, -, start, -, -, ends, -⟩ := positions 3
  have place : map.position 3 "ÖÖÖ" = ⟨2, 2⟩ := by decide
  have third : StartsLine own 2 4 :=
    ⟨['a', '\n', 'b', '\n'], ['c', '\n', 'd', '\n'], by decide, by decide, by decide, by decide⟩
  obtain ⟨located, length, -⟩ := locations ⟨2, 5⟩ "a.cs" (by decide)
  refine ⟨?_, ⟨third, ends 4 ?_⟩, ?_, ascending 3 9 (by decide), located, length, by decide⟩
  · rw [checked, place]
  · rwa [place]
  · exact (positions 9).1.trans (by decide)

end TreeLint.Text.LineMap
