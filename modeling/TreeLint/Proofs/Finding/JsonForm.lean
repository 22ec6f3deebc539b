import TreeLint.Finding.Basic
import TreeLint.Finding.Failure
import TreeLint.Proofs.Json.Codec

/-!
# Findings and their JSON form

What is written for a finding or a failure is read back as it was, record by record from the
locations upwards. More is accepted than is written: members that are no fields, fields that may be
missing, and second names of two categories. Whatever is accepted, the finding that it is read as is
written in one form, from which it is read again (`TreeLint.Finding.survives_json`).
-/

namespace TreeLint

open Json Json.Decode

theorem Severity.codec : Codec Severity.toJson Severity.ofJson :=
  Codec.choice fun severity => by cases severity <;> rfl

theorem Applicability.codec :
    Codec (fun applicability => .string (Applicability.name applicability)) Applicability.ofJson :=
  Codec.choice fun applicability => by cases applicability <;> rfl

theorem Category.codec : Codec Category.toJson Category.ofJson where
  reads := fun category => by cases category <;> rfl
  present := fun _ => nofun

namespace Location

theorem codec : Codec toJson ofJson where
  reads := fun location => by
    have written : record "Location" fields location.toJson = .ok ⟨_⟩ :=
      record_of_written "Location" (by decide) <|
        .cons (.of_codec .path "file" location.file) <|
        .cons (.of_codec .natural "line" location.line) <|
        .cons (.of_codec .natural "column" location.column) <|
        .cons (.of_option .natural "end_line" location.endLine) <|
        .cons (.of_option .natural "end_column" location.endColumn) <|
        .cons (.of_codec .natural "offset" location.offset) <|
        .cons (.of_codec .natural "length" location.length) <|
        .cons (.of_option .span "span" location.span) .nil
    rw [ofJson, written, bind_ok]
    simp only [Fields.required, Fields.optional, List.lookup_cons, beq_self_eq_true,
      String.reduceBEq, Codec.path.reads, Codec.natural.reads, Codec.natural.option,
      Codec.span.option, bind_ok]
    rfl
  present := fun _ => nofun

theorem ignoresUnknown : IgnoresUnknown fields ofJson := by
  refine ignoresUnknown_of_fields (fun _ => rfl) fun first second same => ?_
  simp only [fields, field, List.map_cons, List.map_nil, List.forall_mem_cons] at same
  simp only [Fields.required, Fields.optional, same]

/-- The fields of a location that may be missing. -/
def optionalFields : List String :=
  ["end_line", "end_column", "span"]

theorem mayOmit {name : String} (optional : name ∈ optionalFields) : MayOmit ofJson name := by
  simp only [optionalFields, List.mem_cons, List.not_mem_nil, or_false] at optional
  rcases optional with rfl | rfl | rfl
  all_goals
    refine mayOmit_of_fields (fun _ => rfl) (fun check known => ?_) fun members absent => ?_
    · cases known
      rfl
    · simp only [Fields.optional_null absent, Fields.required_null, ne_eq, String.reduceEq,
        not_false_eq_true]

end Location

namespace Suggestion

theorem codec : Codec toJson ofJson where
  reads := fun suggestion => by
    have written : record "CodeSuggestion" fields suggestion.toJson = .ok ⟨_⟩ :=
      record_of_written "CodeSuggestion" (by decide) <|
        .cons (.of_codec .string "message" suggestion.message) <|
        .cons (.of_codec .string "replacement" suggestion.replacement) <|
        .cons (.of_codec Location.codec "location" suggestion.location) <|
        .cons (.of_codec Applicability.codec "applicability" suggestion.applicability) .nil
    rw [ofJson, written, bind_ok]
    simp only [Fields.required, List.lookup_cons, beq_self_eq_true, String.reduceBEq,
      Codec.string.reads, Location.codec.reads, Applicability.codec.reads, bind_ok]
    rfl
  present := fun _ => nofun

theorem ignoresUnknown : IgnoresUnknown fields ofJson := by
  refine ignoresUnknown_of_fields (fun _ => rfl) fun first second same => ?_
  simp only [fields, field, List.map_cons, List.map_nil, List.forall_mem_cons] at same
  simp only [Fields.required, same]

end Suggestion

namespace Failure

theorem codec : Codec toJson ofJson where
  reads := fun failure => by
    have written : record "CheckerFailure" fields failure.toJson = .ok ⟨_⟩ :=
      record_of_written "CheckerFailure" (by decide) <|
        .cons (.of_codec .string "rule_id" failure.ruleId) <|
        .cons (.of_codec .string "node_kind" failure.nodeKind) <|
        .cons (.of_codec .span "span" failure.span) <|
        .cons (.of_codec .string "message" failure.message) .nil
    rw [ofJson, written, bind_ok]
    simp only [Fields.required, List.lookup_cons, beq_self_eq_true, String.reduceBEq,
      Codec.string.reads, Codec.span.reads, bind_ok]
    rfl
  present := fun _ => nofun

theorem ignoresUnknown : IgnoresUnknown fields ofJson := by
  refine ignoresUnknown_of_fields (fun _ => rfl) fun first second same => ?_
  simp only [fields, field, List.map_cons, List.map_nil, List.forall_mem_cons] at same
  simp only [Fields.required, same]

end Failure

namespace Finding

theorem codec : Codec toJson ofJson where
  reads := fun finding => by
    have written : record "Diagnostic" fields finding.toJson = .ok ⟨_⟩ :=
      record_of_written "Diagnostic" (by decide) <|
        .cons (.of_codec .string "rule_id" finding.ruleId) <|
        .cons (.of_option .string "code" finding.code) <|
        .cons (.of_codec Severity.codec "severity" finding.severity) <|
        .cons (.of_codec .string "message" finding.message) <|
        .cons (.of_codec (.list .string) "message_args" finding.messageArgs) <|
        .cons (.of_codec Location.codec "location" finding.location) <|
        .cons (.of_codec (.dict .string) "properties" finding.properties) <|
        .cons (.of_codec (.list Suggestion.codec) "suggestions" finding.suggestions) <|
        .cons (.of_option Category.codec "category" finding.category) .nil
    rw [ofJson, written, bind_ok]
    simp only [Fields.required, Fields.optional, List.lookup_cons, beq_self_eq_true,
      String.reduceBEq, Codec.string.reads, Codec.string.option, Severity.codec.reads,
      Codec.string.list.reads, Location.codec.reads, Codec.string.dict.reads,
      Suggestion.codec.list.reads, Category.codec.option, bind_ok]
    rfl
  present := fun _ => nofun

theorem ignoresUnknown : IgnoresUnknown fields ofJson := by
  refine ignoresUnknown_of_fields (fun _ => rfl) fun first second same => ?_
  simp only [fields, field, List.map_cons, List.map_nil, List.forall_mem_cons] at same
  simp only [Fields.required, Fields.optional, same]

/-- The fields of a finding that may be missing. -/
def optionalFields : List String :=
  ["code", "category"]

theorem mayOmit {name : String} (optional : name ∈ optionalFields) : MayOmit ofJson name := by
  simp only [optionalFields, List.mem_cons, List.not_mem_nil, or_false] at optional
  rcases optional with rfl | rfl
  all_goals
    refine mayOmit_of_fields (fun _ => rfl) (fun check known => ?_) fun members absent => ?_
    · cases known
      rfl
    · simp only [Fields.optional_null absent, Fields.required_null, ne_eq, String.reduceEq,
        not_false_eq_true]

/-- **Findings survive their JSON form.** A finding is read back from what is written for it, and so
is a failure. A value that is accepted as a finding may be written differently, but the finding that
it is read as is written in one form and read from it again: members that are no fields are ignored,
in the records within a finding too, the fields that may be missing may also be null, and the
categories `style` and `documentation` have a second name each. -/
theorem survives_json :
    (∀ finding, ofJson (toJson finding) = .ok finding) ∧
    (∀ failure, Failure.ofJson (Failure.toJson failure) = .ok failure) ∧
    (∀ value finding, ofJson value = .ok finding →
      ofJson finding.toJson = .ok finding ∧
        ∀ again, ofJson finding.toJson = .ok again → again.toJson = finding.toJson) ∧
    (IgnoresUnknown fields ofJson ∧ IgnoresUnknown Suggestion.fields Suggestion.ofJson ∧
      IgnoresUnknown Location.fields Location.ofJson ∧
      IgnoresUnknown Failure.fields Failure.ofJson) ∧
    ((∀ name ∈ optionalFields, MayOmit ofJson name) ∧
      ∀ name ∈ Location.optionalFields, MayOmit Location.ofJson name) ∧
    Category.ofJson (.string "layout") = .ok .style ∧
    Category.ofJson (.string "docs") = .ok .documentation := by
  refine ⟨codec.reads, Failure.codec.reads, fun value finding _ => ⟨codec.reads finding, ?_⟩,
    ⟨ignoresUnknown, Suggestion.ignoresUnknown, Location.ignoresUnknown, Failure.ignoresUnknown⟩,
    ⟨fun _ => mayOmit, fun _ => Location.mayOmit⟩, rfl, rfl⟩
  intro again read
  rw [codec.reads] at read
  cases read
  rfl

/-- A finding in a form in which it is not written: two fields are missing, one member is no field,
and the category has its second name. -/
def loose : Json :=
  .object [
    ("category", .string "docs"),
    ("note", .bool true),
    ("rule_id", .string "style/header"),
    ("severity", .string "Info"),
    ("message", .string "No header"),
    ("message_args", .array []),
    ("location", .object [("file", .string "Header.cs"), ("line", .natural 1),
      ("column", .natural 1), ("offset", .natural 0), ("length", .natural 0)]),
    ("properties", .object [("b", .string "2"), ("a", .string "1")]),
    ("suggestions", .array [])]

theorem survives_json_loose : ∃ finding, ofJson loose = .ok finding ∧
    finding.category = some .documentation ∧ finding.code = none ∧
    ofJson finding.toJson = .ok finding ∧ MayOmit ofJson "code" ∧
    MayOmit Location.ofJson "span" := by
  have read : ∃ finding, ofJson loose = .ok finding ∧ finding.category = some .documentation ∧
      finding.code = none := ⟨_, rfl, rfl, rfl⟩
  obtain ⟨finding, read, category, code⟩ := read
  obtain ⟨-, -, again, -, ⟨omitted, omittedThere⟩, -⟩ := survives_json
  exact ⟨finding, read, category, code, (again loose finding read).1,
    omitted "code" (by decide), omittedThere "span" (by decide)⟩

end Finding

end TreeLint
