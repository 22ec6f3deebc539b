import TreeLint.Text.Slice
import TreeLint.Text.Span

/-!
# Edits of a text

Edits replace spans of a text, one behind the other and each between characters. What stands in
front of all edits stays (`TreeLint.Text.edited?_of_behind`), and an edit of the first part of a
text replaces just that part (`TreeLint.Text.edited?_of_first`).
-/

namespace TreeLint.Text

/-- A text in place of the bytes of a span. -/
structure Edit where
  span : Span
  replacement : String
deriving Repr, DecidableEq

namespace Edit

/-- What the edits put in place of a span: the replacement of the first edit of this span. -/
def at? (edits : List Edit) (span : Span) : Option String :=
  (edits.find? (·.span = span)).map (·.replacement)

end Edit

/-- The part of a text from an offset on, with edits made in it one after the other. There is none
unless each of them begins behind the one before it and both of its ends fall between characters. -/
def edited? : (offset : Nat) → List Char → List Edit → Option (List Char)
  | _, chars, [] => some chars
  | offset, chars, edit :: edits =>
      if offset ≤ edit.span.start ∧ edit.span.start ≤ edit.span.stop then do
        let before ← takeBytes? chars (edit.span.start - offset)
        let rest ← dropBytes? chars (edit.span.stop - offset)
        (edited? edit.span.stop rest edits).map (before ++ edit.replacement.toList ++ ·)
      else none

theorem takeBytes?_cons (c : Char) (cs : List Char) (n : Nat) :
    takeBytes? (c :: cs) (c.utf8Size + n) = (takeBytes? cs n).map (c :: ·) := by
  obtain ⟨m, size⟩ := Nat.exists_eq_add_one_of_ne_zero (Nat.ne_of_gt c.utf8Size_pos)
  rw [size, Nat.add_right_comm, takeBytes?, size, if_pos (by omega), Nat.add_right_comm,
    Nat.add_sub_cancel_left]

theorem dropBytes?_cons (c : Char) (cs : List Char) (n : Nat) :
    dropBytes? (c :: cs) (c.utf8Size + n) = dropBytes? cs n := by
  obtain ⟨m, size⟩ := Nat.exists_eq_add_one_of_ne_zero (Nat.ne_of_gt c.utf8Size_pos)
  rw [size, Nat.add_right_comm, dropBytes?, size, if_pos (by omega), Nat.add_right_comm,
    Nat.add_sub_cancel_left]

theorem takeBytes?_append_add (first rest : List Char) (n : Nat) :
    takeBytes? (first ++ rest) (width first + n) = (takeBytes? rest n).map (first ++ ·) := by
  induction first with
  | nil =>
      rw [width_nil, Nat.zero_add]
      exact Option.map_id'.symm
  | cons c cs ih =>
      rw [List.cons_append, width_cons, Nat.add_assoc, takeBytes?_cons, ih, Option.map_map]
      rfl

theorem dropBytes?_append_add (first rest : List Char) (n : Nat) :
    dropBytes? (first ++ rest) (width first + n) = dropBytes? rest n := by
  induction first with
  | nil => rw [width_nil, Nat.zero_add, List.nil_append]
  | cons c cs ih => rw [List.cons_append, width_cons, Nat.add_assoc, dropBytes?_cons, ih]

/-- What stands in front of all edits stays. -/
theorem edited?_of_behind {offset : Nat} {first : List Char} {edits : List Edit}
    (rest : List Char) (behind : ∀ edit ∈ edits, offset + width first ≤ edit.span.start) :
    edited? offset (first ++ rest) edits =
      (edited? (offset + width first) rest edits).map (first ++ ·) := by
  cases edits with
  | nil => rfl
  | cons edit edits =>
      have start := behind edit List.mem_cons_self
      rw [edited?, edited?]
      by_cases ordered : edit.span.start ≤ edit.span.stop
      · have starts : edit.span.start - offset =
            width first + (edit.span.start - (offset + width first)) := by omega
        have stops : edit.span.stop - offset =
            width first + (edit.span.stop - (offset + width first)) := by omega
        rw [if_pos ⟨by omega, ordered⟩, if_pos ⟨start, ordered⟩, starts, stops,
          takeBytes?_append_add, dropBytes?_append_add]
        cases takeBytes? rest (edit.span.start - (offset + width first)) with
        | none => rfl
        | some before =>
            cases dropBytes? rest (edit.span.stop - (offset + width first)) with
            | none => rfl
            | some rest =>
                change Option.map _ (edited? edit.span.stop rest edits) =
                  Option.map _ (Option.map _ (edited? edit.span.stop rest edits))
                rw [Option.map_map]
                refine congrArg (Option.map · _) (funext fun after => ?_)
                simp only [Function.comp_apply, List.append_assoc]
      · rw [if_neg fun both => ordered both.2, if_neg fun both => ordered both.2]
        rfl

theorem edited?_of_first {offset : Nat} {first : List Char} {edit : Edit}
    (span : edit.span = ⟨offset, offset + width first⟩) (rest : List Char) (edits : List Edit) :
    edited? offset (first ++ rest) (edit :: edits) =
      (edited? (offset + width first) rest edits).map (edit.replacement.toList ++ ·) := by
  have whole : offset ≤ offset ∧ offset ≤ offset + width first := by omega
  rw [edited?, span]
  dsimp only
  rw [if_pos whole, Nat.sub_self, Nat.add_sub_cancel_left, dropBytes?_append]
  have nothing : takeBytes? (first ++ rest) 0 = some [] := by
    cases first ++ rest <;> rfl
  rw [nothing]
  rfl

end TreeLint.Text
