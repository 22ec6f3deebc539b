import Mathlib.Data.List.Forall2
import TreeLint.Json.Decode

/-!
# Values that are read back

A decoder reads back what an encoder writes when it gives every value again (`TreeLint.Json.Codec`).
The decoders of the common shapes do so if those of their parts do. A record is read back field by
field (`TreeLint.Json.Decode.record_of_written`); members that are no fields are ignored
(`TreeLint.Json.Decode.ignoresUnknown_of_fields`), and a field that may be missing may also be null
(`TreeLint.Json.Decode.mayOmit_of_fields`).
-/

namespace TreeLint.Json

theorem bind_ok {α β : Type} (value : α) (next : α → Except Problem β) :
    (Except.ok value >>= next) = next value := rfl

/-- A decoder reads back what an encoder writes, and what is written is never null. -/
structure Codec {α : Type} (encode : α → Json) (decode : Decoder α) : Prop where
  reads : ∀ value, decode (encode value) = .ok value
  present : ∀ value, encode value ≠ .null

namespace Codec

open Decode

variable {α : Type} {encode : α → Json} {decode : Decoder α}

theorem string : Codec .string Decode.string :=
  ⟨fun _ => rfl, fun _ => nofun⟩

theorem path : Codec .string Decode.path :=
  ⟨fun _ => rfl, fun _ => nofun⟩

theorem natural : Codec Json.natural Decode.natural where
  reads := fun count => by
    have notBelow : ¬ (count : Int) < 0 := Int.not_lt.mpr (Int.natCast_nonneg count)
    rw [Json.natural, Decode.natural, if_neg notBelow, Int.toNat_natCast]
  present := fun _ => nofun

/-- What is never null can be told from absence. -/
theorem option (codec : Codec encode decode) (value : Option α) :
    Decode.option decode (ofOption encode value) = .ok value := by
  cases value with
  | none => rfl
  | some value =>
      have given : Decode.option decode (encode value) = (decode (encode value)).map some := by
        have present := codec.present value
        unfold Decode.option
        split
        · next null => exact absurd null present
        · rfl
      change Decode.option decode (encode value) = _
      rw [given, codec.reads]
      rfl

theorem mapM_map (codec : Codec encode decode) (items : List α) :
    (items.map encode).mapM decode = .ok items := by
  induction items with
  | nil => rfl
  | cons item items ih =>
      rw [List.map_cons, List.mapM_cons, codec.reads, bind_ok, ih, bind_ok]
      rfl

theorem list (codec : Codec encode decode) : Codec (ofList encode) (Decode.list decode) :=
  ⟨codec.mapM_map, fun _ => nofun⟩

/-- The entries of a dictionary are read back one by one, and they are those of the dictionary. -/
theorem dict (codec : Codec encode decode) : Codec (ofDict encode) (Decode.dict decode) where
  reads := fun dict => by
    have members (entries : List (String × α)) :
        (entries.map fun entry => (entry.1, encode entry.2)).mapM
          (fun member => do return (member.1, ← decode member.2)) =
            (.ok entries : Except Problem _) := by
      induction entries with
      | nil => rfl
      | cons entry entries ih =>
          rw [List.map_cons, List.mapM_cons, codec.reads, bind_ok]
          change (Except.ok _ >>= _) = _
          rw [bind_ok, ih, bind_ok]
          rfl
    change (_ >>= _) = _
    rw [members, bind_ok, Dict.ofList_entries]
    rfl
  present := fun _ => nofun

theorem span : Codec ofSpan Decode.span where
  reads := fun span => by
    change (_ >>= _) = _
    rw [natural.reads, bind_ok, natural.reads, bind_ok]
    rfl
  present := fun _ => nofun

theorem choice {variants : List (String × α)} {name : α → String}
    (named : ∀ value, variants.lookup (name value) = some value) :
    Codec (fun value => .string (name value)) (Decode.choice variants) where
  reads := fun value => by
    change variant variants (name value) = _
    rw [variant, named]
  present := fun _ => nofun

end Codec

namespace Decode

variable {α : Type}

/-! ### Records -/

theorem checkMembers_cons (fields : List Field) (member : String × Json)
    (members : List (String × Json)) : checkMembers fields (member :: members) =
      (match fields.lookup member.1 with
        | some check => check member.2
        | none => .ok ()) >>= fun _ => checkMembers fields members := by
  rw [checkMembers]
  cases fields.lookup member.1 <;> rfl

/-- The members of an object pass the check when each of them that is a field does. -/
theorem checkMembers_of_accepted {fields : List Field} {members : List (String × Json)}
    (accepted : ∀ member ∈ members, ∀ check, fields.lookup member.1 = some check →
      check member.2 = .ok ()) : checkMembers fields members = .ok () := by
  induction members with
  | nil => rfl
  | cons member members ih =>
      have rest := ih fun other listed => accepted other (List.mem_cons_of_mem _ listed)
      have here := accepted member List.mem_cons_self
      rw [checkMembers_cons, rest]
      cases known : fields.lookup member.1 with
      | none => rfl
      | some check =>
          dsimp only
          rw [here check known, bind_ok]

/-- A member is written for a field: it has its name, and the check of the field accepts it. -/
def WrittenFor (field : Field) (member : String × Json) : Prop :=
  field.1 = member.1 ∧ field.2 member.2 = .ok ()

theorem WrittenFor.of_codec {encode : α → Json} {decode : Decoder α} (codec : Codec encode decode)
    (name : String) (value : α) : WrittenFor (field name decode) (name, encode value) := by
  refine ⟨rfl, ?_⟩
  change (decode (encode value)).map _ = _
  rw [codec.reads]
  rfl

theorem WrittenFor.of_option {encode : α → Json} {decode : Decoder α}
    (codec : Codec encode decode) (name : String) (value : Option α) :
    WrittenFor (field name (option decode)) (name, ofOption encode value) := by
  refine ⟨rfl, ?_⟩
  change (option decode (ofOption encode value)).map _ = _
  rw [codec.option]
  rfl

theorem names_of_written {fields : List Field} {members : List (String × Json)}
    (written : List.Forall₂ WrittenFor fields members) :
    members.map (·.1) = fields.map (·.1) := by
  induction written with
  | nil => rfl
  | cons here _ ih => rw [List.map_cons, List.map_cons, here.1, ih]

theorem accepted_of_written {fields : List Field} {members : List (String × Json)}
    (names : (fields.map (·.1)).Nodup) (written : List.Forall₂ WrittenFor fields members)
    {member : String × Json} (listed : member ∈ members) {check : Json → Except Problem Unit}
    (known : fields.lookup member.1 = some check) : check member.2 = .ok () := by
  induction written with
  | nil => exact absurd listed List.not_mem_nil
  | @cons field _ fields members here rest ih =>
      obtain ⟨fresh, names⟩ := List.nodup_cons.mp names
      rw [Dict.lookup_entry] at known
      rcases List.mem_cons.mp listed with rfl | later
      · rw [if_pos here.1.symm] at known
        cases known
        exact here.2
      · have other : member.1 ≠ field.1 := by
          intro same
          have named : member.1 ∈ members.map (·.1) := List.mem_map.mpr ⟨member, later, rfl⟩
          rw [names_of_written rest, same] at named
          exact fresh named
        rw [if_neg other] at known
        exact ih names later known

/-- An object that is written field by field is a record. -/
theorem record_of_written (type : String) {fields : List Field} {members : List (String × Json)}
    (names : (fields.map (·.1)).Nodup) (written : List.Forall₂ WrittenFor fields members) :
    record type fields (.object members) = .ok ⟨members⟩ := by
  have accepted := checkMembers_of_accepted fun member listed check known =>
    accepted_of_written names written listed known
  change (_ >>= _) = _
  rw [accepted, bind_ok]
  rfl

/-! ### Members that say nothing -/

theorem lookup_append_of_ne {name other : String} (different : other ≠ name) (value : Json)
    (front back : List (String × Json)) :
    (front ++ (name, value) :: back).lookup other = (front ++ back).lookup other := by
  induction front with
  | nil => exact (Dict.lookup_entry ..).trans (if_neg different)
  | cons entry front ih =>
      rw [List.cons_append, List.cons_append, Dict.lookup_entry, ih, Dict.lookup_entry]

theorem checkMembers_unknown {fields : List Field} {name : String}
    (unknown : fields.lookup name = none) (value : Json) (front back : List (String × Json)) :
    checkMembers fields (front ++ (name, value) :: back) = checkMembers fields (front ++ back) := by
  induction front with
  | nil =>
      change checkMembers fields ((name, value) :: back) = checkMembers fields back
      rw [checkMembers_cons, unknown]
      rfl
  | cons entry front ih =>
      rw [List.cons_append, List.cons_append, checkMembers_cons, ih, ← checkMembers_cons]

/-- A decoder of records does not look at members that are no fields. -/
def IgnoresUnknown (fields : List Field) (decode : Decoder α) : Prop :=
  ∀ (front back : List (String × Json)) (name : String) (value : Json),
    name ∉ fields.map (·.1) →
      decode (.object (front ++ (name, value) :: back)) = decode (.object (front ++ back))

/-- A decoder of records takes a field that is missing for one that is null. -/
def MayOmit (decode : Decoder α) (name : String) : Prop :=
  ∀ members : List (String × Json), members.lookup name = none →
    decode (.object ((name, .null) :: members)) = decode (.object members)

theorem lookup_eq_none_of_not_mem {fields : List Field} {name : String}
    (unknown : name ∉ fields.map (·.1)) : fields.lookup name = none := by
  refine List.lookup_eq_none_iff.mpr fun field member => ?_
  refine bne_iff_ne.mpr fun same => unknown ?_
  rw [same]
  exact List.mem_map_of_mem member

/-- What is made of the fields of a record alone does not depend on its other members. -/
theorem ignoresUnknown_of_fields {type : String} {fields : List Field} {decode : Decoder α}
    {make : Fields → Except Problem α}
    (whole : ∀ value, decode value = record type fields value >>= make)
    (alone : ∀ first second : Fields, (∀ name ∈ fields.map (·.1),
      first.values.lookup name = second.values.lookup name) → make first = make second) :
    IgnoresUnknown fields decode := by
  intro front back name value unknown
  have checked := checkMembers_unknown (lookup_eq_none_of_not_mem unknown) value front back
  have made : make ⟨front ++ (name, value) :: back⟩ = make ⟨front ++ back⟩ := by
    refine alone _ _ fun other known => lookup_append_of_ne ?_ value front back
    rintro rfl
    exact unknown known
  rw [whole, whole, record, record, checked]
  cases checkMembers fields (front ++ back) with
  | error problem => rfl
  | ok _ => exact made

theorem Fields.required_null {name other : String} (different : other ≠ name)
    (members : List (String × Json)) (decode : Decoder α) :
    Fields.required ⟨(name, .null) :: members⟩ other decode =
      Fields.required ⟨members⟩ other decode := by
  unfold Fields.required
  rw [Dict.lookup_entry, if_neg different]

theorem Fields.optional_null {name : String} {members : List (String × Json)}
    (absent : members.lookup name = none) (other : String) (decode : Decoder α) :
    Fields.optional ⟨(name, .null) :: members⟩ other decode =
      Fields.optional ⟨members⟩ other decode := by
  unfold Fields.optional
  rw [Dict.lookup_entry]
  by_cases same : other = name
  · rw [if_pos same, same, absent]
    rfl
  · rw [if_neg same]

theorem mayOmit_of_fields {type : String} {fields : List Field} {decode : Decoder α}
    {make : Fields → Except Problem α} {name : String}
    (whole : ∀ value, decode value = record type fields value >>= make)
    (accepted : ∀ check, fields.lookup name = some check → check .null = .ok ())
    (same : ∀ members : List (String × Json), members.lookup name = none →
      make ⟨(name, .null) :: members⟩ = make ⟨members⟩) : MayOmit decode name := by
  intro members absent
  have checked : checkMembers fields ((name, .null) :: members) = checkMembers fields members := by
    rw [checkMembers_cons]
    cases known : fields.lookup name with
    | none => rfl
    | some check =>
        dsimp only
        rw [accepted check known, bind_ok]
  rw [whole, whole, record, record, checked]
  cases checkMembers fields members with
  | error problem => rfl
  | ok _ => exact same members absent

end Decode

end TreeLint.Json
