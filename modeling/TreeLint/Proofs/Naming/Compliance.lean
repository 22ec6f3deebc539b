import TreeLint.Proofs.Naming.Stability

/-!
# Corrected names comply

The spans of the lowercase mapping lead into spans of lowercase characters, and those of the
uppercase mapping lead past all of them. So a name whose first character can be mapped towards the
convention is corrected to one whose first character complies, and everything behind the first
character stays (`TreeLint.Convention.fix?_decides`).
-/

namespace TreeLint

namespace Text

/-- Whether the code points that a span maps to are seen to belong to another one: they are between
its bounds, and either nothing between them is left out or the parities agree. -/
def CaseSpan.isWithin (span : CaseSpan) (other : CodeSpan) : Bool :=
  Nat.ble other.first span.image &&
    Nat.ble (span.image + (span.last - span.first)) other.last &&
      (other.step == 1 ||
        other.step == 2 && span.isEven && (span.image + other.first) % 2 == 0)

theorem CaseSpan.contains_map {span : CaseSpan} {other : CodeSpan} {code : Nat}
    (within : span.isWithin other = true) (here : span.contains code = true) :
    other.contains (span.map code) = true := by
  obtain ⟨above, below, -⟩ := (span.contains_iff code).mp here
  simp only [isWithin, Bool.or_eq_true, Bool.and_eq_true, Nat.ble_eq, beq_iff_eq] at within
  obtain ⟨⟨first, last⟩, steps⟩ := within
  refine (other.contains_iff _).mpr ⟨?_, ?_, ?_⟩
  · unfold map
    omega
  · unfold map
    omega
  · rcases steps with one | ⟨⟨two, even⟩, parity⟩
    · rw [one, Nat.mod_one]
    · have parityToo := CodeSpan.even_of_isEven even here
      unfold map
      rw [two]
      omega

/-- Whether a case table is seen to map to lowercase characters first. -/
def leadsInto (expansions : List (Nat × List Nat)) (spans : List CaseSpan) : Bool :=
  (expansions.all fun entry => entry.2.head?.any fun head =>
      lowercaseSpans.any (·.contains head)) &&
    spans.all fun span => lowercaseSpans.any span.isWithin

/-- Whether a case table is seen to map to other than lowercase characters first. -/
def leadsPast (expansions : List (Nat × List Nat)) (spans : List CaseSpan) : Bool :=
  (expansions.all fun entry => entry.2.head?.any fun head =>
      !lowercaseSpans.any (·.contains head)) &&
    spans.all fun span => lowercaseSpans.all span.avoids

theorem toLower_leadsInto : leadsInto toLowerExpansions toLowerSpans = true := by
  decide +kernel

theorem toUpper_leadsPast : leadsPast toUpperExpansions toUpperSpans = true := by
  decide +kernel

theorem exists_head_of_any {image : List Nat} {q : Nat → Bool}
    (some : image.head?.any q = true) : ∃ head tail, image = head :: tail ∧ q head = true := by
  cases image with
  | nil => cases some
  | cons head tail => exact ⟨head, tail, rfl, some⟩

variable {expansions : List (Nat × List Nat)} {spans : List CaseSpan}

theorem mapCode_of_leadsInto (leads : leadsInto expansions spans = true) (code : Nat) :
    mapCode expansions spans code = [code] ∨ ∃ head tail,
      mapCode expansions spans code = head :: tail ∧
        lowercaseSpans.any (·.contains head) = true := by
  simp only [leadsInto, Bool.and_eq_true, List.all_eq_true] at leads
  apply mapCode_begins
  · exact fun entry member => exists_head_of_any (leads.1 entry member)
  · intro span member code here
    obtain ⟨other, listed, within⟩ := List.any_eq_true.mp (leads.2 span member)
    exact List.any_eq_true.mpr ⟨other, listed, CaseSpan.contains_map within here⟩

theorem mapCode_of_leadsPast (leads : leadsPast expansions spans = true) (code : Nat) :
    mapCode expansions spans code = [code] ∨ ∃ head tail,
      mapCode expansions spans code = head :: tail ∧
        lowercaseSpans.any (·.contains head) = false := by
  simp only [leadsPast, Bool.and_eq_true, List.all_eq_true] at leads
  apply mapCode_begins
  · intro entry member
    obtain ⟨head, tail, image, past⟩ := exists_head_of_any (leads.1 entry member)
    rw [Bool.not_eq_true'] at past
    exact ⟨head, tail, image, past⟩
  · intro span member code here
    refine List.any_eq_false.mpr fun other listed => ?_
    exact CaseSpan.not_contains_map (leads.2 span member other listed) here

/-- The characters that a character is mapped to begin as the code points do. -/
theorem map_ofNat_begins (settled : settles expansions spans = true) {lower : Bool} {first : Char}
    (begins : mapCode expansions spans first.toNat = [first.toNat] ∨ ∃ head tail,
      mapCode expansions spans first.toNat = head :: tail ∧
        lowercaseSpans.any (·.contains head) = lower)
    (changed : (mapCode expansions spans first.toNat).map Char.ofNat ≠ [first]) :
    ∃ head tail, (mapCode expansions spans first.toNat).map Char.ofNat = head :: tail ∧
      isLowercase head = lower := by
  have code : first.toNat.isValidChar := first.valid
  obtain ⟨head, tail, image, valid, -⟩ := mapCode_settles settled code
  rcases begins with same | ⟨_, _, sameImage, holds⟩
  · rw [same, List.map_singleton, Char.ofNat_toNat] at changed
    exact absurd rfl changed
  · rw [image] at sameImage
    cases sameImage
    refine ⟨Char.ofNat head, tail.map Char.ofNat, ?_, ?_⟩
    · rw [image, List.map_cons]
    · rw [isLowercase, Convention.toNat_ofNat valid, holds]

end Text

namespace Convention

/-- Where a convention maps a character to something else, that begins with a character that
complies. -/
theorem map_begins {convention : Convention} {first : Char}
    (changed : convention.map first ≠ [first]) : ∃ head tail,
      convention.map first = head :: tail ∧
        Text.isLowercase head = decide (convention = .camelCase) := by
  cases convention with
  | camelCase =>
      exact Text.map_ofNat_begins Text.toLower_settles
        (Text.mapCode_of_leadsInto Text.toLower_leadsInto _) changed
  | pascalCase =>
      exact Text.map_ofNat_begins Text.toUpper_settles
        (Text.mapCode_of_leadsPast Text.toUpper_leadsPast _) changed

theorem accepts_iff {convention : Convention} {first : Char} : convention.accepts first = true ↔
    Text.isLowercase first = decide (convention = .camelCase) := by
  cases convention with
  | camelCase => exact Iff.rfl
  | pascalCase => exact iff_of_eq (Bool.not_eq_true' _)

/-- What a corrected name is: another name that has the full mapping of the first character in its
place, begins with a lowercase character exactly under camel case, and needs no correction. -/
structure IsFix (convention : Convention) (name fixed : String) : Prop where
  differs : fixed ≠ name
  mapped : ∃ first rest, name = String.ofList [first] ++ rest ∧
    fixed = String.ofList (convention.map first) ++ rest
  begins : ∃ head rest, fixed = String.ofList [head] ++ rest ∧
    Text.isLowercase head = decide (convention = .camelCase)
  settled : convention.fix? fixed = none

theorem fix?_cons (convention : Convention) (first : Char) (rest : String) :
    convention.fix? (String.ofList [first] ++ rest) =
      if convention.accepts first then none
      else if convention.map first = [first] then none
      else some (String.ofList (convention.map first) ++ rest) := by
  have chars : (String.ofList [first] ++ rest).toList = first :: rest.toList := by
    rw [String.toList_append, String.toList_ofList, List.singleton_append]
  rw [fix?, chars, fixChars?]
  split
  · rfl
  · split
    · rfl
    · rw [Option.map_some, String.ofList_append, String.ofList_toList]

theorem exists_eq_ofList_append {name : String} (some : name ≠ "") :
    ∃ first rest, name = String.ofList [first] ++ rest := by
  cases chars : name.toList with
  | nil => exact absurd (String.toList_eq_nil_iff.mp chars) some
  | cons first rest =>
      refine ⟨first, String.ofList rest, ?_⟩
      rw [← String.ofList_append, List.singleton_append, ← chars, String.ofList_toList]

/-- A correction is given exactly when the name has a first character that does not comply and has
a mapping towards the convention. -/
theorem fix?_decides (convention : Convention) (name : String) :
    (∀ fixed, convention.fix? name = some fixed → convention.IsFix name fixed) ∧
    (convention.fix? name = none ↔ name = "" ∨ ∃ first rest,
      name = String.ofList [first] ++ rest ∧
        (Text.isLowercase first = decide (convention = .camelCase) ∨
          convention.map first = [first])) := by
  by_cases nothing : name = ""
  · subst nothing
    have none : convention.fix? "" = none := rfl
    refine ⟨?_, iff_of_true none (.inl rfl)⟩
    intro fixed corrected
    rw [none] at corrected
    cases corrected
  obtain ⟨first, rest, rfl⟩ := exists_eq_ofList_append nothing
  constructor
  · intro fixed corrected
    have settled := fix?_of_fix? corrected
    rw [fix?_cons] at corrected
    split at corrected
    · cases corrected
    · split at corrected
      · cases corrected
      · next changed =>
          cases corrected
          obtain ⟨head, tail, image, complies⟩ := map_begins changed
          refine ⟨?_, ⟨first, rest, rfl, rfl⟩, ⟨head, String.ofList tail ++ rest, ?_, complies⟩,
            settled⟩
          · intro same
            have mapped := String.append_left_inj rest |>.mp same
            exact changed (String.ofList_injective mapped)
          · rw [image, ← String.append_assoc, ← String.ofList_append, List.singleton_append]
  · rw [fix?_cons]
    constructor
    · intro none
      refine .inr ⟨first, rest, rfl, ?_⟩
      by_cases accepted : convention.accepts first = true
      · exact .inl (accepts_iff.mp accepted)
      · by_cases same : convention.map first = [first]
        · exact .inr same
        · rw [if_neg accepted, if_neg same] at none
          cases none
    · rintro (empty | ⟨head, tail, split, complies⟩)
      · exact absurd empty nothing
      · have chars := congrArg String.toList split
        rw [String.toList_append, String.toList_append, String.toList_ofList,
          String.toList_ofList] at chars
        obtain ⟨rfl, -⟩ := List.cons.inj chars
        rcases complies with accepted | same
        · rw [if_pos (accepts_iff.mpr accepted)]
        · rw [if_pos same, ite_self]

/-- A letter that is uppercased to two characters, of which the first one is no letter with case. -/
theorem fix?_decides_expanding : Convention.pascalCase.fix? "ŉx" = some "ʼNx" ∧
    Convention.pascalCase.IsFix "ŉx" "ʼNx" := by
  have corrected : Convention.pascalCase.fix? "ŉx" = some "ʼNx" := by decide
  exact ⟨corrected, (fix?_decides _ _).1 _ corrected⟩

end Convention

end TreeLint
