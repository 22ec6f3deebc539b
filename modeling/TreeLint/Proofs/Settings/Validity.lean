import TreeLint.Proofs.Json.Validation
import TreeLint.Proofs.Settings.Documents
import TreeLint.Settings.Schema

/-!
# Valid configuration documents

A document that is valid against the published schema is accepted, and what is written for a
configuration is valid (`TreeLint.Configuration.valid_documents`). More is accepted than the schema
admits: second names of choices, and the list of both options in place of an object. The references
of the schema are followed as far as they lead
(`TreeLint.Configuration.Schema.validates_settled`).
-/

namespace TreeLint

open Json Json.Schema

/-! ### What the parts of the schema admit -/

namespace Configuration.Schema

variable {refers : String → Json → Bool}

theorem hasType_null {value : Json} : hasType value (.string "null") = true ↔ value = .null := by
  cases value <;> simp [hasType]

theorem hasType_boolean {value : Json} :
    hasType value (.string "boolean") = true ↔ ∃ truth, value = .bool truth := by
  cases value <;> simp [hasType]

theorem admits_constant (name description : String) (value : Json) :
    admits refers (constant name description) value = isText name value := by
  have only : isText name value = true → hasType value (.string "string") = true := by
    cases value <;> simp [hasType, isText]
  simpa [constant, admits, admitsBy] using only

theorem admitting_constants (names : List (String × String)) (value : Json) :
    admitting refers (names.map fun (name, description) => constant name description) value =
      (names.filter fun name => isText name.1 value).length := by
  induction names with
  | nil => rfl
  | cons name names ih =>
      rw [List.map_cons, admitting, ih, admits_constant, List.filter_cons]
      cases isText name.1 value with
      | false => exact Nat.zero_add _
      | true => exact Nat.add_comm _ _

/-- A choice admits a value that is exactly one of the names. -/
theorem admits_choice (description : String) (names : List (String × String)) (value : Json) :
    admits refers (choice description names) value =
      ((names.filter fun name => isText name.1 value).length == 1) := by
  simp [choice, admits, admitsBy, admitting_constants]

theorem exists_of_admits_choice {description : String} {names : List (String × String)}
    {value : Json} (admitted : admits refers (choice description names) value = true) :
    ∃ name ∈ names, value = .string name.1 := by
  rw [admits_choice, beq_iff_eq] at admitted
  obtain ⟨name, only⟩ := List.length_eq_one_iff.mp admitted
  have listed : name ∈ names.filter fun name => isText name.1 value :=
    only ▸ List.mem_singleton_self name
  obtain ⟨listed, text⟩ := List.mem_filter.mp listed
  refine ⟨name, listed, ?_⟩
  cases value with
  | string other => exact congrArg Json.string (beq_iff_eq.mp text)
  | _ => cases text

/-- A choice admits nothing that cannot be read, if all its names can. -/
theorem exists_of_admits {α : Type} {variants : List (String × α)} {description : String}
    {names : List (String × String)} {value : Json}
    (known : ∀ name ∈ names, (variants.lookup name.1).isSome = true)
    (admitted : admits refers (choice description names) value = true) :
    ∃ result, choice? variants value = some result := by
  obtain ⟨name, listed, rfl⟩ := exists_of_admits_choice admitted
  exact Option.isSome_iff_exists.mp (known name listed)

theorem admits_definitionOrNull (definition description : String) (value : Json) :
    admits refers (definitionOrNull definition description) value = true ↔
      refers ("#/$defs/" ++ definition) value = true ∨ value = .null := by
  have one (first second : Bool) :
      (decide (0 < first.toNat + (second.toNat + 0)) && true) = true ↔
        first = true ∨ second = true := by
    cases first <;> cases second <;> simp
  change (decide (0 < (refers ("#/$defs/" ++ definition) value && true).toNat +
    ((hasType value (.string "null") && true).toNat + 0)) && true) = true ↔ _
  rw [one, Bool.and_true, Bool.and_true, hasType_null]

theorem admits_orNull (type description : String) (value : Json) :
    admits refers (.object [("description", .string description), ("type", orNull type)]) value =
        true ↔ hasType value (.string type) = true ∨ value = .null := by
  change ((hasType value (.string type) || (hasType value (.string "null") || false)) && true) =
    true ↔ _
  rw [Bool.and_true, Bool.or_false, Bool.or_eq_true, hasType_null]

/-- The members of one name are admitted. -/
theorem all_named {members : List (String × Json)} {name : String} {holds : Json → Bool} :
    (members.all fun member => member.1 != name || holds member.2) = true ↔
      ∀ member ∈ members, member.1 = name → holds member.2 = true := by
  simp only [List.all_eq_true, Bool.or_eq_true, bne_iff_ne, ne_eq, ← Decidable.imp_iff_not_or]

/-- Naming options are admitted if all members are that have the name of an option. -/
theorem admits_naming (value : Json) : admits refers naming value = true ↔
    ∃ members, value = .object members ∧
      (∀ member ∈ members, member.1 = NamingConfiguration.inferredKey →
        (∃ truth, member.2 = .bool truth) ∨ member.2 = .null) ∧
      ∀ member ∈ members, member.1 = NamingConfiguration.casingKey →
        refers "#/$defs/CasingConvention" member.2 = true ∨ member.2 = .null := by
  cases value with
  | object members =>
      change (((members.all fun member => member.1 != NamingConfiguration.inferredKey ||
          admits refers _ member.2) && ((members.all fun member =>
            member.1 != NamingConfiguration.casingKey || admits refers _ member.2) && true)) &&
        true) = true ↔ _
      simp only [Bool.and_true, Bool.and_eq_true, all_named, admits_orNull,
        admits_definitionOrNull, hasType_boolean, object.injEq, exists_eq_left']
      rfl
  | _ => simp [naming, admits, admitsBy, hasType]

/-- Severities are admitted if all members are, whatever their names. -/
theorem admits_rules (description : String) (value : Json) :
    admits refers (.object [("additionalProperties", reference "RuleSeverity"),
        ("description", .string description), ("type", orNull "object")]) value = true ↔
      (∃ rules, value = .object rules ∧
        ∀ rule ∈ rules, refers "#/$defs/RuleSeverity" rule.2 = true) ∨ value = .null := by
  cases value with
  | object rules =>
      change ((rules.all fun rule => refers "#/$defs/RuleSeverity" rule.2 && true) && true) =
        true ↔ _
      simp only [Bool.and_true, List.all_eq_true, object.injEq, exists_eq_left', reduceCtorEq,
        or_false]
  | null => simp [orNull, admits, admitsBy, hasType, members]
  | _ => simp [orNull, admits, admitsBy, hasType, members]

/-- A configuration is admitted if all members are that have the name of an option. -/
theorem admits_schema (value : Json) : admits refers schema value = true ↔
    ∃ members, value = .object members ∧
      (∀ member ∈ members, member.1 = namingKey →
        refers "#/$defs/NamingConfiguration" member.2 = true ∨ member.2 = .null) ∧
      ∀ member ∈ members, member.1 = rulesKey →
        (∃ rules, member.2 = .object rules ∧
          ∀ rule ∈ rules, refers "#/$defs/RuleSeverity" rule.2 = true) ∨ member.2 = .null := by
  cases value with
  | object members =>
      change (((members.all fun member => member.1 != namingKey || admits refers _ member.2) &&
        ((members.all fun member => member.1 != rulesKey || admits refers _ member.2) && true)) &&
          true) = true ↔ _
      simp only [Bool.and_true, Bool.and_eq_true, all_named, admits_definitionOrNull, admits_rules,
        object.injEq, exists_eq_left']
      rfl
  | _ => simp [schema, admits, admitsBy, hasType]

/-! ### Where references lead -/

theorem refers_conventions (depth : Nat) (value : Json) :
    Json.Schema.refers schema (depth + 1) "#/$defs/CasingConvention" value =
      admits (Json.Schema.refers schema depth) conventions value := rfl

theorem refers_naming (depth : Nat) (value : Json) :
    Json.Schema.refers schema (depth + 1) "#/$defs/NamingConfiguration" value =
      admits (Json.Schema.refers schema depth) naming value := rfl

theorem refers_severities (depth : Nat) (value : Json) :
    Json.Schema.refers schema (depth + 1) "#/$defs/RuleSeverity" value =
      admits (Json.Schema.refers schema depth) severities value := rfl

theorem validates_schema (value : Json) :
    validates schema value = admits (Json.Schema.refers schema 3) schema value := rfl

theorem refers_conventions_settled (depth : Nat) (value : Json) :
    Json.Schema.refers schema (depth + 1) "#/$defs/CasingConvention" value =
      Json.Schema.refers schema 1 "#/$defs/CasingConvention" value := by
  rw [refers_conventions, refers_conventions, conventions, admits_choice, admits_choice]

theorem refers_severities_settled (depth : Nat) (value : Json) :
    Json.Schema.refers schema (depth + 1) "#/$defs/RuleSeverity" value =
      Json.Schema.refers schema 1 "#/$defs/RuleSeverity" value := by
  rw [refers_severities, refers_severities, severities, admits_choice, admits_choice]

theorem refers_naming_settled (depth : Nat) (value : Json) :
    Json.Schema.refers schema (depth + 2) "#/$defs/NamingConfiguration" value =
      Json.Schema.refers schema 2 "#/$defs/NamingConfiguration" value := by
  rw [refers_naming, refers_naming, Bool.eq_iff_iff, admits_naming, admits_naming]
  simp only [refers_conventions_settled depth]

/-- It makes no difference to follow references further than `validates` does. -/
theorem validates_settled (depth : Nat) (value : Json) :
    admits (Json.Schema.refers schema (depth + 2)) schema value = validates schema value := by
  rw [validates_schema, Bool.eq_iff_iff, admits_schema, admits_schema]
  simp only [refers_naming_settled depth, refers_naming_settled 1,
    refers_severities_settled (depth + 1), refers_severities_settled 2]

end Configuration.Schema

/-! ### Valid documents are accepted -/

variable {refers : String → Json → Bool}

theorem Convention.exists_of_admits {value : Json}
    (admitted : admits refers Configuration.Schema.conventions value = true) :
    ∃ convention, choice? variants value = some convention :=
  Configuration.Schema.exists_of_admits (by decide) admitted

theorem RuleSeverity.exists_of_admits {value : Json}
    (admitted : admits refers Configuration.Schema.severities value = true) :
    ∃ severity, choice? variants value = some severity :=
  Configuration.Schema.exists_of_admits (by decide) admitted

open Configuration.Schema in
/-- Valid naming options describe some. -/
theorem NamingConfiguration.exists_of_valid {value : Json} (distinct : value.isDistinct = true)
    (valid : Json.Schema.refers Configuration.schema 3 "#/$defs/NamingConfiguration" value = true) :
    ∃ naming, described? value = some naming := by
  rw [refers_naming] at valid
  obtain ⟨members, rfl, truths, casings⟩ := (admits_naming value).mp valid
  have names := of_decide_eq_true (Bool.and_eq_true_iff.mp distinct).1
  refine exists_record NamingConfiguration.mk names ?_ ?_
  · intro member listed named
    refine (casings member listed named).imp_left fun admitted => ?_
    rw [refers_conventions] at admitted
    exact Convention.exists_of_admits admitted
  · intro member listed named
    refine (truths member listed named).imp_left ?_
    rintro ⟨truth, same⟩
    exact ⟨truth, by rw [same, truth?]⟩

namespace Configuration

open Configuration.Schema

theorem exists_severities {rules : List (String × Json)} {depth : Nat}
    (valid : ∀ rule ∈ rules,
      Json.Schema.refers schema (depth + 1) "#/$defs/RuleSeverity" rule.2 = true) :
    ∃ severities, severities? (.object rules) = some severities := by
  refine exists_dict fun rule listed => ?_
  have admitted := valid rule listed
  rw [refers_severities] at admitted
  exact RuleSeverity.exists_of_admits admitted

/-- A valid document describes a configuration. -/
theorem exists_of_valid {value : Json} (distinct : value.isDistinct = true)
    (valid : validates schema value = true) :
    ∃ configuration, described? value = some configuration := by
  rw [validates_schema] at valid
  obtain ⟨members, rfl, namings, rules⟩ := (admits_schema value).mp valid
  obtain ⟨names, distinct⟩ := Bool.and_eq_true_iff.mp distinct
  refine exists_record Configuration.mk (of_decide_eq_true names) ?_ ?_
  · intro member listed named
    exact (namings member listed named).imp_left
      (NamingConfiguration.exists_of_valid (isDistinct_of_mem distinct listed))
  · intro member listed named
    refine (rules member listed named).imp_left ?_
    rintro ⟨rules, same, valid⟩
    rw [same]
    exact exists_severities valid

/-! ### What is written is valid -/

theorem admits_convention (convention : Convention) :
    admits refers conventions convention.toJson = true := by
  rw [conventions, admits_choice]
  cases convention <;> rfl

theorem admits_severity (severity : RuleSeverity) :
    admits refers severities severity.toJson = true := by
  rw [severities, admits_choice]
  cases severity <;> rfl

theorem eq_of_first {first second : String} (different : first ≠ second) {one two : Json}
    {member : String × Json} (listed : member ∈ [(first, one), (second, two)])
    (named : member.1 = first) : member.2 = one := by
  rcases List.mem_cons.mp listed with rfl | later
  · rfl
  · cases List.mem_singleton.mp later
    exact absurd named different.symm

theorem eq_of_second {first second : String} (different : first ≠ second) {one two : Json}
    {member : String × Json} (listed : member ∈ [(first, one), (second, two)])
    (named : member.1 = second) : member.2 = two := by
  rcases List.mem_cons.mp listed with rfl | later
  · exact absurd named different
  · cases List.mem_singleton.mp later
    rfl

/-- What is written for naming options is valid. -/
theorem refers_toJson (naming : NamingConfiguration) :
    Json.Schema.refers schema 3 "#/$defs/NamingConfiguration" naming.toJson = true := by
  rw [refers_naming, admits_naming]
  obtain ⟨casing, inferred⟩ := naming
  refine ⟨_, rfl, fun member listed named => ?_, fun member listed named => ?_⟩
  · rw [eq_of_second NamingConfiguration.casingKey_ne_inferredKey listed named]
    cases inferred with
    | none => exact .inr rfl
    | some truth => exact .inl ⟨truth, rfl⟩
  · rw [eq_of_first NamingConfiguration.casingKey_ne_inferredKey listed named]
    cases casing with
    | none => exact .inr rfl
    | some convention => exact .inl (admits_convention convention)

/-- What is written for a configuration is valid. -/
theorem validates_toJson (configuration : Configuration) :
    validates schema configuration.toJson = true := by
  rw [validates_schema, admits_schema]
  obtain ⟨naming, rules⟩ := configuration
  refine ⟨_, rfl, fun member listed named => ?_, fun member listed named => ?_⟩
  · rw [eq_of_first namingKey_ne_rulesKey listed named]
    cases naming with
    | none => exact .inr rfl
    | some naming => exact .inl (refers_toJson naming)
  · rw [eq_of_second namingKey_ne_rulesKey listed named]
    cases rules with
    | none => exact .inr rfl
    | some rules =>
        refine .inl ⟨_, rfl, fun rule listed => ?_⟩
        obtain ⟨entry, _, rfl⟩ := List.mem_map.mp listed
        exact admits_severity entry.2

/-- Whatever is valid against the published schema and has no repeated names is accepted, however it
is spelled; and what is written for a configuration is valid. -/
theorem valid_documents :
    (∀ value : Json, value.isDistinct = true → validates schema value = true →
      ∃ configuration,
        (∀ spelled, Skippable spelled →
          readLexemes (value.lexemes spelled) = .ok (configuration, [])) ∧
        ∀ text, Spells text value → read text = .ok configuration) ∧
    ∀ configuration : Configuration, validates schema configuration.toJson = true := by
  refine ⟨fun value distinct valid => ?_, validates_toJson⟩
  obtain ⟨configuration, described⟩ := exists_of_valid distinct valid
  refine ⟨configuration, fun spelled skippable => ?_, fun text spells => ?_⟩
  · have taken := reads skippable value []
    rw [List.append_nil, described] at taken
    exact eq_ok_of_toOption taken
  · exact (read_eq_ok_iff spells configuration).mpr described

/-- A document with an unknown member, a severity and an option that is null. -/
def validSample : Json :=
  .object [
    ("retries", .number (.integer 3)), (rulesKey, .object [("style/a", .string "warn")]),
    (namingKey, .null)]

/-- A text of the document with blanks, an escape and a number beyond double precision. -/
def validText : String :=
  "\x7b \"retries\" : 1e999,\n\"rules\":\x7b\"style/a\":\"w\\u0061rn\"\x7d, \"naming\": null\x7d"

set_option maxRecDepth 4000 in
theorem spells_validText : Spells validText validSample :=
  ⟨fun _ => ⟨.error .numberTooLarge, .ok ()⟩, fun _ => rfl, by rfl⟩

theorem read_validText :
    validSample.isDistinct = true ∧ validates schema validSample = true ∧
      Spells validText validSample ∧ ∃ configuration, read validText = .ok configuration := by
  obtain ⟨configuration, _, accepted⟩ := valid_documents.1 validSample (by rfl) (by rfl)
  exact ⟨by rfl, by rfl, spells_validText, configuration, accepted validText spells_validText⟩

end Configuration

end TreeLint
