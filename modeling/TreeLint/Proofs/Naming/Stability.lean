import TreeLint.Naming.Convention

/-!
# Corrected names stay as they are

A character that a case table maps to is not mapped any further, because the spans of a table map
out of all spans of the table. So a corrected name complies with the convention
(`TreeLint.Convention.fix?_of_fix?`).
-/

namespace TreeLint

namespace Text

/-- Whether all code points of a span are seen to have the parity of its first one. -/
def CodeSpan.isEven (span : CodeSpan) : Bool :=
  span.step == 2 || span.first == span.last

/-- Whether the code points that a span maps to are seen to be outside of another one: by the
bounds, or because the two have different parities. -/
def CaseSpan.avoids (span : CaseSpan) (other : CodeSpan) : Bool :=
  Nat.blt (span.image + (span.last - span.first)) other.first || Nat.blt other.last span.image ||
    span.isEven && other.isEven && (span.image + other.first) % 2 == 1

/-- Whether the code points that a span maps to are code points of characters. -/
def CaseSpan.isValid (span : CaseSpan) : Bool :=
  Nat.blt (span.image + (span.last - span.first)) 0xD800 ||
    Nat.blt 0xDFFF span.image && Nat.blt (span.image + (span.last - span.first)) 0x110000

/-- Whether the first code point of an image is one of a character and maps to itself. -/
def settlesImage (expansions : List (Nat × List Nat)) (spans : List CaseSpan) :
    List Nat → Bool
  | [] => false
  | head :: _ => decide head.isValidChar && mapCode expansions spans head == [head]

/-- Whether a case table is seen to map to characters that it maps to themselves. -/
def settles (expansions : List (Nat × List Nat)) (spans : List CaseSpan) : Bool :=
  expansions.all (settlesImage expansions spans ·.2) &&
    spans.all fun span => span.isValid && spans.all (span.avoids ·.toCodeSpan) &&
      expansions.all fun entry => span.avoids ⟨entry.1, entry.1, 1⟩

theorem toLower_settles : settles toLowerExpansions toLowerSpans = true := by
  decide +kernel

theorem toUpper_settles : settles toUpperExpansions toUpperSpans = true := by
  decide +kernel

theorem CodeSpan.contains_iff (span : CodeSpan) (code : Nat) : span.contains code = true ↔
    span.first ≤ code ∧ code ≤ span.last ∧ (code - span.first) % span.step = 0 := by
  simp only [contains, Bool.and_eq_true, decide_eq_true_eq, beq_iff_eq, and_assoc]

theorem CodeSpan.even_of_isEven {span : CodeSpan} {code : Nat} (even : span.isEven = true)
    (here : span.contains code = true) : (code - span.first) % 2 = 0 := by
  obtain ⟨above, below, steps⟩ := (span.contains_iff code).mp here
  simp only [isEven, Bool.or_eq_true, beq_iff_eq] at even
  rcases even with two | single
  · rw [two] at steps
    exact steps
  · omega

theorem CaseSpan.not_contains_map {span : CaseSpan} {other : CodeSpan} {code : Nat}
    (avoids : span.avoids other = true) (here : span.contains code = true) :
    other.contains (span.map code) ≠ true := by
  intro there
  obtain ⟨above, below, -⟩ := (span.contains_iff code).mp here
  obtain ⟨aboveToo, belowToo, -⟩ := (other.contains_iff _).mp there
  unfold map at aboveToo belowToo
  simp only [CaseSpan.avoids, Bool.or_eq_true, Bool.and_eq_true, Nat.blt_eq, beq_iff_eq] at avoids
  rcases avoids with (before | behind) | ⟨⟨even, evenToo⟩, odd⟩
  · omega
  · omega
  · have parity := CodeSpan.even_of_isEven even here
    have parityToo := CodeSpan.even_of_isEven evenToo there
    unfold map at parityToo
    omega

theorem CaseSpan.isValidChar_map {span : CaseSpan} {code : Nat} (valid : span.isValid = true)
    (here : span.contains code = true) : (span.map code).isValidChar := by
  obtain ⟨above, below, -⟩ := (span.contains_iff code).mp here
  simp only [isValid, Bool.or_eq_true, Bool.and_eq_true, Nat.blt_eq] at valid
  unfold map Nat.isValidChar
  omega

variable {expansions : List (Nat × List Nat)} {spans : List CaseSpan}

theorem mapCode_of_outside {code : Nat} (unexpanded : expansions.lookup code = none)
    (outside : spans.find? (·.contains code) = none) : mapCode expansions spans code = [code] := by
  rw [mapCode, unexpanded, outside]

/-- What a case table maps a code point to begins with what an expansion begins with or with what a
span maps to, unless it is the code point itself. -/
theorem mapCode_begins {p : Nat → Prop}
    (images : ∀ entry ∈ expansions, ∃ head tail, entry.2 = head :: tail ∧ p head)
    (mapped : ∀ span ∈ spans, ∀ code, span.contains code = true → p (span.map code))
    (code : Nat) : mapCode expansions spans code = [code] ∨
      ∃ head tail, mapCode expansions spans code = head :: tail ∧ p head := by
  cases expanded : expansions.lookup code with
  | some image =>
      obtain ⟨former, latter, split, -⟩ := List.lookup_eq_some_iff.mp expanded
      obtain ⟨head, tail, begins, holds⟩ :=
        images (code, image) (split ▸ List.mem_append_cons_self)
      refine .inr ⟨head, tail, ?_, holds⟩
      rw [mapCode, expanded]
      exact begins
  | none =>
      cases found : spans.find? (·.contains code) with
      | none => exact .inl (mapCode_of_outside expanded found)
      | some span =>
          have here := List.find?_some found
          have holds := mapped span (List.mem_of_find?_eq_some found) code here
          refine .inr ⟨span.map code, [], ?_, holds⟩
          rw [mapCode, expanded, found]

/-- A case table that settles maps to the code point of a character first, which it maps to
itself. -/
theorem mapCode_settles (settled : settles expansions spans = true) {code : Nat}
    (valid : code.isValidChar) : ∃ head tail, mapCode expansions spans code = head :: tail ∧
      head.isValidChar ∧ mapCode expansions spans head = [head] := by
  simp only [settles, Bool.and_eq_true, List.all_eq_true] at settled
  obtain ⟨images, settled⟩ := settled
  refine (mapCode_begins ?_ ?_ code).elim (fun same => ⟨code, [], same, valid, same⟩) id
  · intro entry member
    have settled := images entry member
    cases image : entry.2 with
    | nil =>
        rw [image] at settled
        cases settled
    | cons head tail =>
        rw [image] at settled
        simp only [settlesImage, Bool.and_eq_true, decide_eq_true_eq, beq_iff_eq] at settled
        exact ⟨head, tail, rfl, settled⟩
  · intro span member code here
    obtain ⟨⟨valid, apart⟩, unexpanded⟩ := settled span member
    refine ⟨CaseSpan.isValidChar_map valid here, mapCode_of_outside ?_ ?_⟩
    · rw [List.lookup_eq_none_iff]
      intro entry member
      rw [bne_iff_ne]
      intro same
      exact CaseSpan.not_contains_map (unexpanded entry member) here
        ((CodeSpan.contains_iff _ _).mpr
          ⟨Nat.le_of_eq same.symm, Nat.le_of_eq same, Nat.mod_one _⟩)
    · rw [List.find?_eq_none]
      exact fun other member => CaseSpan.not_contains_map (apart other member) here

end Text

namespace Convention

variable {convention : Convention}

theorem toNat_ofNat {code : Nat} (valid : code.isValidChar) : (Char.ofNat code).toNat = code := by
  unfold Char.ofNat
  rw [dif_pos valid]
  rfl

theorem exists_map_eq_cons (convention : Convention) (first : Char) :
    ∃ head tail, convention.map first = head :: tail ∧ convention.map head = [head] := by
  have valid : first.toNat.isValidChar := first.valid
  cases convention with
  | camelCase =>
      obtain ⟨head, tail, image, valid, same⟩ := Text.mapCode_settles Text.toLower_settles valid
      refine ⟨Char.ofNat head, tail.map Char.ofNat, ?_, ?_⟩
      · rw [map, Text.toLowercase, image]
        rfl
      · rw [map, Text.toLowercase, toNat_ofNat valid, same]
        rfl
  | pascalCase =>
      obtain ⟨head, tail, image, valid, same⟩ := Text.mapCode_settles Text.toUpper_settles valid
      refine ⟨Char.ofNat head, tail.map Char.ofNat, ?_, ?_⟩
      · rw [map, Text.toUppercase, image]
        rfl
      · rw [map, Text.toUppercase, toNat_ofNat valid, same]
        rfl

theorem fixChars?_of_fixChars? {chars fixed : List Char}
    (corrected : convention.fixChars? chars = some fixed) : convention.fixChars? fixed = none := by
  cases chars with
  | nil => cases corrected
  | cons first rest =>
      obtain ⟨head, tail, image, same⟩ := convention.exists_map_eq_cons first
      rw [fixChars?] at corrected
      split at corrected
      · cases corrected
      · split at corrected
        · cases corrected
        · obtain rfl := Option.some.inj corrected
          rw [image, List.cons_append, fixChars?, same, if_pos rfl, ite_self]

/-- A corrected name needs no correction. -/
theorem fix?_of_fix? {name fixed : String} (corrected : convention.fix? name = some fixed) :
    convention.fix? fixed = none := by
  obtain ⟨chars, found, rfl⟩ := Option.map_eq_some_iff.mp corrected
  rw [fix?, String.toList_ofList, fixChars?_of_fixChars? found]
  rfl

theorem ne_empty_of_fix? {name fixed : String} (corrected : convention.fix? name = some fixed) :
    name ≠ "" := by
  rintro rfl
  cases corrected

end Convention

end TreeLint
