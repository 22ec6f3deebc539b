import Mathlib.Data.List.DropRight
import TreeLint.Text.Lines

/-!
# Positions in a text

The position behind the first characters of a text is told by these characters alone: each line feed
begins a line, and the column counts the characters of the last line. The line map of a text finds
this position at every offset between two characters (`TreeLint.Text.LineMap.position_ofText`). A
text in front of another one moves the positions in the latter
(`TreeLint.Text.Position.behind_append`).
-/

namespace TreeLint.Text

/-- The characters behind the last line feed. -/
def lastLine (chars : List Char) : List Char :=
  chars.rtakeWhile (· ≠ '\n')

/-- The position right behind the characters that a text begins with. -/
def Position.behind (chars : List Char) : Position :=
  ⟨chars.count '\n' + 1, (lastLine chars).length + 1⟩

/-- A position in a text as it is when the text has further characters in front. -/
def Position.moved (front : List Char) (position : Position) : Position :=
  ⟨position.line + front.count '\n',
    if position.line = 1 then position.column + (lastLine front).length else position.column⟩

/-! ### The last line -/

theorem lastLine_of_not_mem {chars : List Char} (single : '\n' ∉ chars) :
    lastLine chars = chars := by
  refine List.rtakeWhile_eq_self_iff.mpr fun c member => decide_eq_true ?_
  rintro rfl
  exact single member

theorem lastLine_append_of_not_mem (first : List Char) {second : List Char}
    (single : '\n' ∉ second) : lastLine (first ++ second) = lastLine first ++ second := by
  have others : ∀ c ∈ second.reverse, decide (c ≠ '\n') = true := by
    intro c member
    refine decide_eq_true ?_
    rintro rfl
    exact single (List.mem_reverse.mp member)
  rw [lastLine, List.rtakeWhile, List.reverse_append, List.takeWhile_append_of_pos others,
    List.reverse_append, List.reverse_reverse]
  rfl

theorem lastLine_append_of_mem (first : List Char) {second : List Char}
    (several : '\n' ∈ second) : lastLine (first ++ second) = lastLine second := by
  have stops : (second.reverse.takeWhile (· ≠ '\n')).length ≠ second.reverse.length := by
    intro lengths
    have whole := (List.takeWhile_prefix (decide <| · ≠ '\n')).eq_of_length lengths
    have inside : '\n' ∈ second.reverse.takeWhile (· ≠ '\n') := by
      rw [whole]
      exact List.mem_reverse.mpr several
    have differs := List.mem_takeWhile_imp inside
    exact absurd rfl (of_decide_eq_true differs)
  rw [lastLine, List.rtakeWhile, List.reverse_append, List.takeWhile_append, if_neg stops]
  rfl

/-- The characters of a text in front of its last line. -/
theorem exists_append_lastLine (chars : List Char) : ∃ front, chars = front ++ lastLine chars :=
  ⟨chars.rdropWhile (· ≠ '\n'), List.rdropWhile_append_rtakeWhile.symm⟩

/-! ### Line maps -/

/-- All lines but the first start behind the beginning. -/
theorem lt_of_mem_lineStarts {offset start : Nat} {chars : List Char}
    (member : start ∈ lineStarts offset chars) : offset < start := by
  induction chars generalizing offset with
  | nil => exact absurd member List.not_mem_nil
  | cons c cs ih =>
      rw [lineStarts] at member
      split at member
      · rcases List.mem_cons.mp member with rfl | later
        · exact Nat.lt_succ_self offset
        · exact Nat.lt_of_succ_lt (ih later)
      · exact Nat.lt_of_le_of_lt (Nat.le_add_right _ _) (ih member)

namespace LineMap

/-- A walk over the lines of a text that begins inside of a line comes to the last line that starts
before the offset. -/
theorem locate_lineStarts {line : List Char} (single : '\n' ∉ line) (start passed : Nat)
    (before after : List Char) :
    ∃ last, locate (start + width line + width before) passed start
        (lineStarts (start + width line) (before ++ after)) =
      (passed + before.count '\n', last) ∧
      last + width (lastLine (line ++ before)) = start + width line + width before := by
  induction before generalizing line start passed with
  | nil =>
      refine ⟨start, ?_, ?_⟩
      · rw [List.nil_append, width_nil, Nat.add_zero, List.count_nil, Nat.add_zero]
        cases starts : lineStarts (start + width line) after with
        | nil => rfl
        | cons next later =>
            have listed : next ∈ lineStarts (start + width line) after := by
              rw [starts]
              exact List.mem_cons_self
            have ahead := lt_of_mem_lineStarts listed
            rw [locate, if_neg (by omega)]
      · rw [List.append_nil, lastLine_of_not_mem single, width_nil, Nat.add_zero]
  | cons c cs ih =>
      rw [List.cons_append, lineStarts, width_cons]
      by_cases feed : c = '\n'
      · -- The walk goes on at the beginning of the next line.
        subst feed
        have size : ('\n').utf8Size = 1 := rfl
        obtain ⟨last, located, ends⟩ :=
          @ih [] List.not_mem_nil (start + width line + 1) (passed + 1)
        rw [width_nil, Nat.add_zero] at located ends
        refine ⟨last, ?_, ?_⟩
        · rw [if_pos rfl, locate, if_pos (by omega), size, ← Nat.add_assoc, located,
            List.count_cons_self, Nat.add_right_comm, Nat.add_assoc]
        · rw [size, ← Nat.add_assoc, ← ends, List.nil_append]
          by_cases more : '\n' ∈ cs
          · rw [← List.singleton_append, ← List.append_assoc, lastLine_append_of_mem _ more]
          · rw [← List.singleton_append, ← List.append_assoc,
              lastLine_append_of_not_mem _ more, lastLine_of_not_mem more,
              lastLine_append_of_mem line (List.mem_singleton_self _)]
            rfl
      · have longer : '\n' ∉ line ++ [c] := by
          rw [List.mem_append, List.mem_singleton, not_or]
          exact ⟨single, fun same => feed same.symm⟩
        obtain ⟨last, located, ends⟩ := ih longer start passed
        rw [width_append, width_cons, width_nil, Nat.add_zero] at located ends
        rw [List.append_assoc, List.singleton_append] at ends
        refine ⟨last, ?_, ?_⟩
        · rw [if_neg feed, List.count_cons_of_ne feed, ← Nat.add_assoc, Nat.add_assoc start,
            located]
        · rw [ends]
          omega

/-- A walk over the lines of a text comes to the start of the last line in front of an offset. -/
theorem locate_ofText {text : String} {before after : List Char}
    (split : text.toList = before ++ after) : ∃ front, before = front ++ lastLine before ∧
      locate (width before) 0 0 (ofText text).laterStarts = (before.count '\n', width front) := by
  obtain ⟨last, located, ends⟩ := @locate_lineStarts [] List.not_mem_nil 0 0 before after
  rw [width_nil, Nat.add_zero, Nat.zero_add, Nat.zero_add] at located
  rw [width_nil, Nat.add_zero, Nat.zero_add, List.nil_append] at ends
  obtain ⟨front, whole⟩ := exists_append_lastLine before
  have start : last = width front := by
    have widths := congrArg width whole
    rw [width_append] at widths
    omega
  refine ⟨front, whole, ?_⟩
  rw [ofText, split, located, start]

/-- The bytes between the start of a line and an offset are those of the last line in front of the
offset. -/
theorem slice?_lastLine {text : String} {before after front : List Char}
    (split : text.toList = before ++ after) (whole : before = front ++ lastLine before) :
    slice? text.toList (width front)
      (max (min (width before) (width text.toList)) (width front)) = some (lastLine before) := by
  have widths := congrArg width whole
  rw [width_append] at widths
  have stop : max (min (width before) (width text.toList)) (width front) =
      width front + width (lastLine before) := by
    rw [split, width_append]
    omega
  have middle := slice?_append front (lastLine before) after
  rw [← whole] at middle
  rw [stop, split, middle]

/-- The line map of a text finds the position behind its first characters. -/
theorem position_ofText {text : String} {before after : List Char}
    (split : text.toList = before ++ after) :
    (ofText text).position (width before) text = .behind before := by
  obtain ⟨front, whole, located⟩ := locate_ofText split
  unfold position
  rw [located]
  dsimp only
  rw [slice?_lastLine split whole]
  rfl

end LineMap

/-! ### Texts in front -/

/-- What stands in front of a text moves the positions in the text. -/
theorem Position.behind_append (front chars : List Char) :
    behind (front ++ chars) = (behind chars).moved front := by
  unfold behind moved
  dsimp only
  rw [List.count_append, Nat.add_comm (front.count '\n'), Nat.add_right_comm]
  by_cases several : '\n' ∈ chars
  · have counted : chars.count '\n' + 1 ≠ 1 := by
      have some := List.count_pos_iff.mpr several
      omega
    rw [if_neg counted, lastLine_append_of_mem front several]
  · have counted : chars.count '\n' + 1 = 1 := by
      rw [List.count_eq_zero.mpr several]
    rw [if_pos counted, lastLine_append_of_not_mem front several, lastLine_of_not_mem several,
      List.length_append]
    congr 1
    omega

/-- At the seam the columns go on behind the last line in front. -/
example : (Position.behind "b".toList).moved "x\nÖ".toList = ⟨2, 3⟩ := by decide

end TreeLint.Text
