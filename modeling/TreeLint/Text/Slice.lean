/-!
# Byte offsets into a text

Ranges of a text count the bytes of its UTF-8 form, while the text itself is a list of characters.
This file relates the two: the width of a list of characters, and the part of it between two byte
offsets, which exists only when both offsets fall between characters.
-/

namespace TreeLint.Text

/-- Number of bytes the characters take in UTF-8. -/
def width : List Char → Nat
  | [] => 0
  | c :: cs => c.utf8Size + width cs

/-- Drops exactly `n` bytes; absent when `n` is not a character boundary. -/
def dropBytes? : List Char → Nat → Option (List Char)
  | cs, 0 => some cs
  | [], _ + 1 => none
  | c :: cs, n + 1 => if c.utf8Size ≤ n + 1 then dropBytes? cs (n + 1 - c.utf8Size) else none

/-- Takes exactly `n` bytes; absent when `n` is not a character boundary. -/
def takeBytes? : List Char → Nat → Option (List Char)
  | _, 0 => some []
  | [], _ + 1 => none
  | c :: cs, n + 1 =>
      if c.utf8Size ≤ n + 1 then (takeBytes? cs (n + 1 - c.utf8Size)).map (c :: ·) else none

/-- The characters between two byte offsets; absent unless both are character boundaries. -/
def slice? (cs : List Char) (start stop : Nat) : Option (List Char) :=
  (dropBytes? cs start).bind (takeBytes? · (stop - start))

@[simp] theorem width_nil : width [] = 0 := rfl

@[simp] theorem width_cons (c : Char) (cs : List Char) :
    width (c :: cs) = c.utf8Size + width cs := rfl

/-- Widths add up. -/
@[simp] theorem width_append (first second : List Char) :
    width (first ++ second) = width first + width second := by
  induction first with
  | nil => simp
  | cons c cs ih => simp [ih, Nat.add_assoc]

theorem width_pos {cs : List Char} (some : cs ≠ []) : 0 < width cs := by
  cases cs with
  | nil => exact absurd rfl some
  | cons c cs => exact Nat.lt_of_lt_of_le c.utf8Size_pos (Nat.le_add_right _ _)

/-- Dropping the width of a leading part leaves the rest. -/
theorem dropBytes?_append (first rest : List Char) :
    dropBytes? (first ++ rest) (width first) = some rest := by
  induction first with
  | nil => cases rest <;> simp [dropBytes?]
  | cons c cs ih =>
      obtain ⟨n, hn⟩ := Nat.exists_eq_add_one_of_ne_zero (Nat.ne_of_gt c.utf8Size_pos)
      have step : c.utf8Size + width cs = (n + width cs) + 1 := by omega
      simp only [List.cons_append, width_cons, step, dropBytes?]
      rw [if_pos (by omega), show n + width cs + 1 - c.utf8Size = width cs by omega, ih]

/-- Taking the width of a leading part gives that part. -/
theorem takeBytes?_append (first rest : List Char) :
    takeBytes? (first ++ rest) (width first) = some first := by
  induction first with
  | nil => cases rest <;> simp [takeBytes?]
  | cons c cs ih =>
      obtain ⟨n, hn⟩ := Nat.exists_eq_add_one_of_ne_zero (Nat.ne_of_gt c.utf8Size_pos)
      have step : c.utf8Size + width cs = (n + width cs) + 1 := by omega
      simp only [List.cons_append, width_cons, step, takeBytes?]
      rw [if_pos (by omega), show n + width cs + 1 - c.utf8Size = width cs by omega, ih]
      rfl

/-- The slice between the boundaries of a middle part is that part. -/
theorem slice?_append (before middle after : List Char) :
    slice? (before ++ middle ++ after) (width before) (width before + width middle) =
      some middle := by
  rw [slice?, List.append_assoc, dropBytes?_append]
  simp [takeBytes?_append]

end TreeLint.Text
