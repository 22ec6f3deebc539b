import Mathlib.Data.List.Forall2

/-!
# Corresponding lists

Lists whose elements are related one by one, and optional elements that are related, if there are
any. What functions choose from such lists is related again if the functions choose alike.
-/

namespace TreeLint

variable {α β γ δ : Type} {R : α → β → Prop} {S : γ → δ → Prop} {first : List α} {second : List β}

theorem exists_of_mem_right (corresponding : List.Forall₂ R first second) {right : β}
    (member : right ∈ second) : ∃ left ∈ first, R left right := by
  induction corresponding with
  | nil => exact absurd member List.not_mem_nil
  | cons here below ih =>
      rcases List.mem_cons.mp member with rfl | inside
      · exact ⟨_, List.mem_cons_self, here⟩
      · obtain ⟨left, member, related⟩ := ih inside
        exact ⟨left, List.mem_cons_of_mem _ member, related⟩

theorem isEmpty_eq_of_rel (corresponding : List.Forall₂ R first second) :
    second.isEmpty = first.isEmpty := by
  cases corresponding <;> rfl

theorem rel_head? (corresponding : List.Forall₂ R first second) :
    Option.Rel R first.head? second.head? := by
  cases corresponding with
  | nil => exact .none
  | cons here below => exact .some here

theorem rel_find? {choose : α → Bool} {chooseToo : β → Bool}
    (same : ∀ left right, R left right → (choose left = true ↔ chooseToo right = true))
    (corresponding : List.Forall₂ R first second) :
    Option.Rel R (first.find? choose) (second.find? chooseToo) := by
  rw [← List.head?_filter, ← List.head?_filter]
  exact rel_head? (List.rel_filter (fun left right => same left right) corresponding)

/-- Corresponding elements that are looked for stand at the same index. -/
theorem findIdx?_eq_of_rel {choose : α → Bool} {chooseToo : β → Bool}
    (corresponding : List.Forall₂ R first second)
    (same : ∀ left ∈ first, ∀ right, R left right → chooseToo right = choose left) :
    second.findIdx? chooseToo = first.findIdx? choose := by
  induction corresponding with
  | nil => rfl
  | cons here below ih =>
      rw [List.findIdx?_cons, List.findIdx?_cons, same _ List.mem_cons_self _ here,
        ih fun left member => same left (List.mem_cons_of_mem _ member)]

theorem rel_findSome? {choose : α → Option γ} {chooseToo : β → Option δ}
    (same : ∀ left right, R left right → Option.Rel S (choose left) (chooseToo right))
    (corresponding : List.Forall₂ R first second) :
    Option.Rel S (first.findSome? choose) (second.findSome? chooseToo) := by
  rw [← List.head?_filterMap, ← List.head?_filterMap]
  exact rel_head? (List.rel_filterMap (fun left right => same left right) corresponding)

/-- The parts of corresponding lists have to correspond for elements of the lists only. -/
theorem forall₂_flatMap {part : α → List γ} {partToo : β → List δ}
    (corresponding : List.Forall₂ R first second)
    (parts : ∀ left ∈ first, ∀ right, R left right →
      List.Forall₂ S (part left) (partToo right)) :
    List.Forall₂ S (first.flatMap part) (second.flatMap partToo) := by
  induction corresponding with
  | nil => exact .nil
  | cons here below ih =>
      rw [List.flatMap_cons, List.flatMap_cons]
      exact List.rel_append (parts _ List.mem_cons_self _ here)
        (ih fun left member => parts left (List.mem_cons_of_mem _ member))

/-- Lists with the same images correspond. -/
theorem forall₂_of_map_eq {f : α → γ} {g : β → γ} (same : first.map f = second.map g) :
    List.Forall₂ (fun left right => f left = g right) first second := by
  rw [← List.forall₂_eq_eq_eq, List.forall₂_map_left_iff, List.forall₂_map_right_iff] at same
  exact same

theorem map_eq_of_rel {f : α → γ} {g : β → γ} (corresponding : List.Forall₂ R first second)
    (same : ∀ left right, R left right → f left = g right) : first.map f = second.map g := by
  rw [← List.forall₂_eq_eq_eq, List.forall₂_map_left_iff, List.forall₂_map_right_iff]
  exact corresponding.imp same

theorem filterMap_eq_of_rel {f : α → Option γ} {g : β → Option γ}
    (corresponding : List.Forall₂ R first second)
    (same : ∀ left right, R left right → f left = g right) :
    first.filterMap f = second.filterMap g := by
  induction corresponding with
  | nil => rfl
  | cons here below ih => rw [List.filterMap_cons, List.filterMap_cons, same _ _ here, ih]

section Options

variable {left : Option α} {right : Option β}

theorem rel_bind {choose : α → Option γ} {chooseToo : β → Option δ}
    (same : ∀ left right, R left right → Option.Rel S (choose left) (chooseToo right))
    (related : Option.Rel R left right) :
    Option.Rel S (left.bind choose) (right.bind chooseToo) := by
  cases related with
  | some related => exact same _ _ related
  | none => exact .none

theorem rel_toList (related : Option.Rel R left right) :
    List.Forall₂ R left.toList right.toList := by
  cases related with
  | some related => exact .cons related .nil
  | none => exact .nil

theorem eq_of_rel_eq {one other : Option α} (same : Option.Rel Eq one other) : other = one := by
  cases same with
  | none => rfl
  | some same => rw [same]

end Options

end TreeLint
