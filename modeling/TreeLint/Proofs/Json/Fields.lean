import TreeLint.Proofs.Json.Reading

/-!
# Records of two fields that may be missing

A record with two fields is an object, where each field may be missing or null but must not be given
twice, or the list of both fields. What such a record means is stated on its value
(`TreeLint.Json.record?`). The order of the members, unknown members and fields that are null do not
matter (`TreeLint.Json.record?_perm`, `TreeLint.Json.record?_unknown`,
`TreeLint.Json.record?_null`). Readers of records take the members of an object one by one, or the
items of a list in turn; both come to this meaning (`TreeLint.Json.Reads.record`), and what is
written field by field has it (`TreeLint.Json.Written.record`).
-/

namespace TreeLint.Json

variable {α β γ σ : Type} {spelled : Number → Reading Number}

/-- The value of a member that is given at most once; none if it is given twice. -/
def unique? (name : String) (members : List (String × Json)) : Option (Option Json) :=
  match members.filter (·.1 = name) with
  | [] => some none
  | [member] => some (some member.2)
  | _ => none

/-- The values of two fields. -/
def fields? (first second : String) : Json → Option (Option Json × Option Json)
  | .object members =>
      (unique? first members).bind fun one => (unique? second members).map fun two => (one, two)
  | .array [one, two] => some (some one, some two)
  | _ => none

/-- What a field means that may be missing or null. -/
def optional? (meaning : Json → Option α) : Option Json → Option (Option α)
  | none => some none
  | some value => nullable? meaning value

/-- What a record of two fields means. -/
def record? (first second : String) (firstMeaning : Json → Option α)
    (secondMeaning : Json → Option β) (make : Option α → Option β → γ) (value : Json) : Option γ :=
  (fields? first second value).bind fun fields =>
    (optional? firstMeaning fields.1).bind fun one =>
      (optional? secondMeaning fields.2).map (make one)

/-! ### Documents of one record -/

/-- A member that is given at most once may stand anywhere. -/
theorem unique?_perm (name : String) {members others : List (String × Json)}
    (same : members.Perm others) : unique? name members = unique? name others := by
  have kept : (members.filter (·.1 = name)).Perm (others.filter (·.1 = name)) := same.filter _
  unfold unique?
  cases here : members.filter (·.1 = name) with
  | nil =>
      rw [here] at kept
      rw [List.nil_perm.mp kept]
  | cons member rest =>
      cases rest with
      | nil =>
          rw [here] at kept
          rw [List.singleton_perm.mp kept]
      | cons later rest =>
          rw [here] at kept
          have two := kept.length_eq
          generalize others.filter (·.1 = name) = kept at two
          rcases kept with _ | ⟨_, _ | ⟨_, _⟩⟩
          · exact absurd two nofun
          · exact absurd two nofun
          · rfl

/-- The members of a record may stand in any order. -/
theorem record?_perm (first second : String) (firstMeaning : Json → Option α)
    (secondMeaning : Json → Option β) (make : Option α → Option β → γ)
    {members others : List (String × Json)} (same : members.Perm others) :
    record? first second firstMeaning secondMeaning make (.object members) =
      record? first second firstMeaning secondMeaning make (.object others) := by
  simp only [record?, fields?, unique?_perm first same, unique?_perm second same]

theorem unique?_cons_of_ne {name other : String} (different : other ≠ name) (value : Json)
    (members : List (String × Json)) :
    unique? name ((other, value) :: members) = unique? name members := by
  simp only [unique?, List.filter_cons, different, decide_false, Bool.false_eq_true, if_false]

/-- A member that is no field of a record says nothing. -/
theorem record?_unknown {first second name : String} (notFirst : name ≠ first)
    (notSecond : name ≠ second) (firstMeaning : Json → Option α)
    (secondMeaning : Json → Option β) (make : Option α → Option β → γ) (value : Json)
    (members : List (String × Json)) :
    record? first second firstMeaning secondMeaning make (.object ((name, value) :: members)) =
      record? first second firstMeaning secondMeaning make (.object members) := by
  simp only [record?, fields?, unique?_cons_of_ne notFirst, unique?_cons_of_ne notSecond]

theorem filter_of_missing {name : String} {members : List (String × Json)}
    (missing : ∀ member ∈ members, member.1 ≠ name) : members.filter (·.1 = name) = [] := by
  apply List.filter_eq_nil_iff.mpr
  intro member listed
  simpa using missing member listed

theorem unique?_of_missing {name : String} {members : List (String × Json)}
    (missing : ∀ member ∈ members, member.1 ≠ name) : unique? name members = some none := by
  rw [unique?, filter_of_missing missing]

theorem unique?_cons_of_missing {name : String} {members : List (String × Json)}
    (missing : ∀ member ∈ members, member.1 ≠ name) (value : Json) :
    unique? name ((name, value) :: members) = some (some value) := by
  simp only [unique?, List.filter_cons, decide_true, if_true, filter_of_missing missing]

/-- Where no name occurs twice, each field is given at most once. -/
theorem exists_unique {members : List (String × Json)} (distinct : (members.map (·.1)).Nodup)
    (name : String) : ∃ found, unique? name members = some found ∧
      ∀ value, found = some value → (name, value) ∈ members := by
  induction members with
  | nil => exact ⟨none, rfl, nofun⟩
  | cons member members ih =>
      obtain ⟨other, value⟩ := member
      obtain ⟨fresh, later⟩ := List.nodup_cons.mp distinct
      by_cases named : other = name
      · subst named
        have missing : ∀ member ∈ members, member.1 ≠ other := by
          intro member listed same
          exact fresh (List.mem_map.mpr ⟨member, listed, same⟩)
        refine ⟨some value, unique?_cons_of_missing missing value, ?_⟩
        rintro _ ⟨rfl⟩
        exact List.mem_cons_self
      · obtain ⟨found, unique, listed⟩ := ih later
        refine ⟨found, (unique?_cons_of_ne named value members).trans unique, ?_⟩
        exact fun given same => List.mem_cons_of_mem _ (listed given same)

/-- An object without repeated names is a record if its fields have a meaning. -/
theorem exists_record {first second : String} {firstMeaning : Json → Option α}
    {secondMeaning : Json → Option β} (make : Option α → Option β → γ)
    {members : List (String × Json)} (distinct : (members.map (·.1)).Nodup)
    (firstMeans : ∀ member ∈ members, member.1 = first →
      (∃ value, firstMeaning member.2 = some value) ∨ member.2 = .null)
    (secondMeans : ∀ member ∈ members, member.1 = second →
      (∃ value, secondMeaning member.2 = some value) ∨ member.2 = .null) :
    ∃ record, record? first second firstMeaning secondMeaning make (.object members) =
      some record := by
  have filled {δ : Type} {name : String} {meaning : Json → Option δ}
      (means : ∀ member ∈ members, member.1 = name →
        (∃ value, meaning member.2 = some value) ∨ member.2 = .null) :
      ∃ found value, unique? name members = some found ∧ optional? meaning found = some value := by
    obtain ⟨found, unique, listed⟩ := exists_unique distinct name
    cases found with
    | none => exact ⟨none, none, unique, rfl⟩
    | some value =>
        obtain ⟨result, known⟩ := exists_nullable (means _ (listed value rfl) rfl)
        exact ⟨some value, result, unique, known⟩
  obtain ⟨one, first, uniqueFirst, known⟩ := filled firstMeans
  obtain ⟨two, second, uniqueSecond, knownToo⟩ := filled secondMeans
  exact ⟨make first second, by
    simp only [record?, fields?, uniqueFirst, uniqueSecond, known, knownToo, Option.bind_some,
      Option.map_some]⟩

/-- A field that is null says no more than one that is missing. -/
theorem record?_null {first second name : String} (different : first ≠ second)
    (firstMeaning : Json → Option α) (secondMeaning : Json → Option β)
    (make : Option α → Option β → γ) {members : List (String × Json)}
    (missing : ∀ member ∈ members, member.1 ≠ name) :
    record? first second firstMeaning secondMeaning make (.object ((name, .null) :: members)) =
      record? first second firstMeaning secondMeaning make (.object members) := by
  by_cases isFirst : name = first
  · subst isFirst
    simp only [record?, fields?, unique?_cons_of_missing missing, unique?_of_missing missing,
      unique?_cons_of_ne different, Option.bind_some, Option.bind_map]
    rfl
  · by_cases isSecond : name = second
    · subst isSecond
      simp only [record?, fields?, unique?_cons_of_missing missing, unique?_of_missing missing,
        unique?_cons_of_ne isFirst, Option.map_some]
      cases unique? first members <;> rfl
    · exact record?_unknown isFirst isSecond firstMeaning secondMeaning make .null members

/-! ### Members in turn -/

/-- What a member adds to a field that is absent until it is read. -/
def fill (name : String) (meaning : Json → Option α) (slot : Option α) (member : String × Json) :
    Option (Option α) :=
  if member.1 = name then
    if slot.isSome then none else (meaning member.2).map some
  else some slot

/-- What a member adds to two fields. -/
def fillTwo (first second : String) (firstMeaning : Json → Option α)
    (secondMeaning : Json → Option β) (slots : Option α × Option β) (member : String × Json) :
    Option (Option α × Option β) :=
  (fill first firstMeaning slots.1 member).bind fun one =>
    (fill second secondMeaning slots.2 member).map fun two => (one, two)

/-- Two fields are filled independently of each other. -/
theorem foldlM_fillTwo (first second : String) (firstMeaning : Json → Option α)
    (secondMeaning : Json → Option β) (members : List (String × Json))
    (slots : Option α × Option β) :
    members.foldlM (fillTwo first second firstMeaning secondMeaning) slots =
      (members.foldlM (fill first firstMeaning) slots.1).bind fun one =>
        (members.foldlM (fill second secondMeaning) slots.2).map fun two => (one, two) := by
  induction members generalizing slots with
  | nil => rfl
  | cons member members ih =>
      simp only [List.foldlM_cons]
      change (fillTwo first second firstMeaning secondMeaning slots member).bind _ = _
      rw [fillTwo]
      cases fill first firstMeaning slots.1 member with
      | none => rfl
      | some one =>
          cases fill second secondMeaning slots.2 member with
          | none =>
              change none = (members.foldlM (fill first firstMeaning) one).bind fun _ => none
              cases members.foldlM (fill first firstMeaning) one <;> rfl
          | some two => exact ih (one, two)

/-- A field that has been read must not be given again. -/
theorem foldlM_fill_some (name : String) (meaning : Json → Option α) (value : α)
    (members : List (String × Json)) :
    members.foldlM (fill name meaning) (some value) =
      if members.filter (·.1 = name) = [] then some (some value) else none := by
  induction members with
  | nil => rfl
  | cons member members ih =>
      rw [List.foldlM_cons, fill, List.filter_cons]
      by_cases named : member.1 = name
      · simp only [named, if_true, Option.isSome_some, decide_true, List.cons_ne_nil, if_false]
        rfl
      · simp only [named, if_false, decide_false, Bool.false_eq_true]
        exact ih

/-- A field has the value of the only member with its name. -/
theorem foldlM_fill (name : String) (meaning : Json → Option α) (members : List (String × Json)) :
    members.foldlM (fill name meaning) none =
      (unique? name members).bind fun value => value.mapM meaning := by
  induction members with
  | nil => rfl
  | cons member members ih =>
      rw [List.foldlM_cons, fill, unique?, List.filter_cons]
      by_cases named : member.1 = name
      · simp only [named, if_true, Option.isSome_none, Bool.false_eq_true, if_false, decide_true]
        cases given : meaning member.2 with
        | none =>
            cases members.filter (·.1 = name) with
            | nil => exact (congrArg (some <$> ·) given).symm
            | cons other others => rfl
        | some value =>
            change members.foldlM (fill name meaning) (some value) = _
            rw [foldlM_fill_some]
            cases members.filter (·.1 = name) with
            | nil => exact (congrArg (some <$> ·) given).symm
            | cons other others => rfl
      · simp only [named, if_false, decide_false, Bool.false_eq_true]
        exact ih

theorem optional?_eq_join (meaning : Json → Option α) (value : Option Json) :
    optional? meaning value = (value.mapM (nullable? meaning)).map Option.join := by
  cases value with
  | none => rfl
  | some value =>
      change nullable? meaning value = (some <$> nullable? meaning value).map Option.join
      cases nullable? meaning value <;> rfl

section TwoMembers

variable {first second : String} {firstRead : Reader α} {secondRead : Reader β}
variable {firstMeaning : Json → Option α} {secondMeaning : Json → Option β}
variable {represent : Option α × Option β → σ}

/-- Reads what follows the name of a member into one of two fields. The state of the reader may
represent the fields in any way. -/
def takeMember (first second : String) (firstRead : Reader α) (secondRead : Reader β)
    (represent : Option α × Option β → σ) (slots : Option α × Option β) (name : String) :
    Reader σ := fun lexemes => do
  if name = first then
    if slots.1.isSome then throw (.duplicateField name)
    let (one, rest) ← Reader.memberValue firstRead lexemes
    return (represent (some one, slots.2), rest)
  else if name = second then
    if slots.2.isSome then throw (.duplicateField name)
    let (two, rest) ← Reader.memberValue secondRead lexemes
    return (represent (slots.1, some two), rest)
  else
    let (_, rest) ← Reader.memberValue Reader.skip lexemes
    return (represent slots, rest)

theorem takeMember_lexemes (skippable : Skippable spelled) (different : first ≠ second)
    (firstReads : Reads spelled firstRead firstMeaning)
    (secondReads : Reads spelled secondRead secondMeaning) (slots : Option α × Option β)
    (name : String) (value : Json) (rest : List Lexeme) :
    (takeMember first second firstRead secondRead represent slots name
        (.colon :: (value.lexemes spelled ++ rest))).toOption =
      (fillTwo first second firstMeaning secondMeaning slots (name, value)).map fun slots =>
        (represent slots, rest) := by
  obtain ⟨one, two⟩ := slots
  unfold takeMember fillTwo fill
  by_cases isFirst : name = first
  · have notSecond : name ≠ second := isFirst ▸ different
    simp only [isFirst, if_true, different, if_false]
    cases one with
    | some one => rfl
    | none =>
        change (Reader.memberValue firstRead _ >>= _).toOption = _
        rw [toOption_bind, firstReads.memberValue]
        cases firstMeaning value <;> rfl
  · simp only [isFirst, if_false]
    by_cases isSecond : name = second
    · simp only [isSecond, if_true]
      cases two with
      | some two => rfl
      | none =>
          change (Reader.memberValue secondRead _ >>= _).toOption = _
          rw [toOption_bind, secondReads.memberValue]
          cases secondMeaning value <;> rfl
    · simp only [isSecond, if_false]
      change (Reader.skip _ >>= _).toOption = _
      rw [skip_lexemes skippable]
      rfl

/-- The members of an object fill two fields, each of which they give at most once. -/
theorem twoMembers_lexemes (skippable : Skippable spelled) (different : first ≠ second)
    (firstReads : Reads spelled firstRead firstMeaning)
    (secondReads : Reads spelled secondRead secondMeaning) {member : σ → String → Reader σ}
    (same : ∀ slots name, member (represent slots) name =
      takeMember first second firstRead secondRead represent slots name)
    (members : List (String × Json)) (rest : List Lexeme) :
    (Reader.allMembers member (represent (none, none))
        (memberLexemes spelled true members ++ .closeObject :: rest)).toOption =
      ((unique? first members).bind fun one => (unique? second members).bind fun two =>
        (one.mapM firstMeaning).bind fun one => (two.mapM secondMeaning).map fun two =>
          (represent (one, two), rest)) := by
  have here (slots : Option α × Option β) (name : String) (value : Json) (rest : List Lexeme) :
      (member (represent slots) name (.colon :: (value.lexemes spelled ++ rest))).toOption =
        (fillTwo first second firstMeaning secondMeaning slots (name, value)).map fun slots =>
          (represent slots, rest) := by
    rw [same, takeMember_lexemes skippable different firstReads secondReads]
  rw [allMembers_lexemes here, foldlM_fillTwo, foldlM_fill, foldlM_fill]
  cases unique? first members with
  | none => rfl
  | some one =>
      simp only [Option.bind_some]
      cases unique? second members with
      | none => cases one.mapM firstMeaning <;> rfl
      | some two =>
          simp only [Option.bind_some]
          cases one.mapM firstMeaning with
          | none => rfl
          | some one => cases two.mapM secondMeaning <;> rfl

end TwoMembers

/-- What an object means as a record of two fields that may be missing or null. -/
theorem record?_object (first second : String) (firstMeaning : Json → Option α)
    (secondMeaning : Json → Option β) (make : Option α → Option β → γ)
    (members : List (String × Json)) :
    record? first second firstMeaning secondMeaning make (.object members) =
      ((unique? first members).bind fun one => (unique? second members).bind fun two =>
        (one.mapM (nullable? firstMeaning)).bind fun one =>
          (two.mapM (nullable? secondMeaning)).map fun two => make one.join two.join) := by
  rw [record?, fields?]
  cases unique? first members with
  | none => rfl
  | some one =>
      cases unique? second members with
      | none => rfl
      | some two =>
          simp only [Option.bind_some, Option.map_some, optional?_eq_join, Option.bind_map,
            Option.map_map]
          rfl

/-! ### Items in turn -/

theorem item_first (record : String) (read : Reader α) (value : Json) (rest : List Lexeme) :
    Reader.item 0 record read (value.lexemes spelled ++ rest) =
      read (value.lexemes spelled ++ rest) := by
  cases value <;> rfl

theorem item_later (index : Nat) (record : String) (read : Reader α) (value : Json)
    (rest : List Lexeme) :
    Reader.item (index + 1) record read (.comma :: (value.lexemes spelled ++ rest)) =
      read (value.lexemes spelled ++ rest) := by
  cases value <;> rfl

/-- What is left of a record when its first field has been read from a list. -/
def secondItem (record : String) (read : Reader α) (make : α → β) : Reader β := fun lexemes => do
  let (two, rest) ← Reader.item 1 record read lexemes
  return (make two, ← Reader.itemsEnd rest)

/-- The two fields of a record in turn. -/
def twoItems (record : String) (firstRead : Reader α) (secondRead : Reader β)
    (make : α → β → γ) : Reader γ := fun lexemes => do
  let (one, rest) ← Reader.item 0 record firstRead lexemes
  secondItem record secondRead (make one) rest

/-- The second field is the last item of the list. -/
theorem secondItem_lexemes {read : Reader α} {meaning : Json → Option α}
    (reads : Reads spelled read meaning) (record : String) (make : α → β) (items : List Json)
    (rest : List Lexeme) :
    (secondItem record read make (itemLexemes spelled false items ++ .closeList :: rest)).toOption =
      (match items with
        | [value] => (meaning value).map make
        | _ => none).map (·, rest) := by
  cases items with
  | nil => rfl
  | cons value items =>
      change (Reader.item 1 record read _ >>= _).toOption = _
      rw [itemLexemes, if_neg Bool.false_ne_true, List.append_assoc, List.append_assoc,
        List.singleton_append, item_later, toOption_bind, reads]
      cases items with
      | nil =>
          dsimp only
          cases meaning value <;> rfl
      | cons other items =>
          dsimp only
          cases meaning value with
          | none => rfl
          | some two => cases other <;> rfl

/-- The items of a list give a record of two fields. -/
theorem twoItems_lexemes {firstRead : Reader α} {secondRead : Reader β}
    {firstMeaning : Json → Option α} {secondMeaning : Json → Option β}
    (firstReads : Reads spelled firstRead firstMeaning)
    (secondReads : Reads spelled secondRead secondMeaning) (record first second : String)
    (make : Option α → Option β → γ) (items : List Json) (rest : List Lexeme) :
    (twoItems record (Reader.option firstRead) (Reader.option secondRead) make
        (itemLexemes spelled true items ++ .closeList :: rest)).toOption =
      (record? first second firstMeaning secondMeaning make (.array items)).map (·, rest) := by
  cases items with
  | nil => rfl
  | cons one items =>
      change (Reader.item 0 record (Reader.option firstRead) _ >>= _).toOption = _
      rw [itemLexemes, if_pos rfl, List.nil_append, List.append_assoc, item_first, toOption_bind,
        firstReads.option]
      have remaining (value : Option α) :=
        secondItem_lexemes secondReads.option record (make value) items rest
      rcases items with _ | ⟨two, _ | ⟨three, items⟩⟩
      · cases nullable? firstMeaning one with
        | none => rfl
        | some value => exact remaining value
      · change _ = (((nullable? firstMeaning one).bind fun value =>
          (nullable? secondMeaning two).map (make value)).map _)
        cases nullable? firstMeaning one with
        | none => rfl
        | some value => exact remaining value
      · cases nullable? firstMeaning one with
        | none => rfl
        | some value => exact remaining value

/-! ### Whole records -/

/-- A reader of records takes the members of an object into two fields, or the items of a list for
them, and takes nothing else. -/
structure ReadsRecord (first second record : String) (firstRead : Reader α) (secondRead : Reader β)
    (make : Option α → Option β → γ) (member : σ → String → Reader σ)
    (represent : Option (Option α) × Option (Option β) → σ) (finish : σ → γ) (read : Reader γ) :
    Prop where
  members : ∀ slots name, member (represent slots) name =
    takeMember first second (Reader.option firstRead) (Reader.option secondRead) represent slots
      name
  finished : ∀ slots, finish (represent slots) = make slots.1.join slots.2.join
  objects : ∀ lexemes, read (.openObject :: lexemes) =
    Reader.allMembers member (represent (none, none)) lexemes >>= fun result =>
      .ok (finish result.1, result.2)
  lists : ∀ lexemes, read (.openList :: lexemes) =
    twoItems record (Reader.option firstRead) (Reader.option secondRead) make lexemes
  others : ∀ lexeme lexemes, lexeme ≠ .openObject → lexeme ≠ .openList →
    (read (lexeme :: lexemes)).toOption = none

/-- A record is read as what it means. -/
theorem Reads.record {first second record : String} {firstRead : Reader α} {secondRead : Reader β}
    {firstMeaning : Json → Option α} {secondMeaning : Json → Option β}
    {make : Option α → Option β → γ} {member : σ → String → Reader σ}
    {represent : Option (Option α) × Option (Option β) → σ} {finish : σ → γ} {read : Reader γ}
    (skippable : Skippable spelled) (different : first ≠ second)
    (firstReads : Reads spelled firstRead firstMeaning)
    (secondReads : Reads spelled secondRead secondMeaning)
    (reader : ReadsRecord first second record firstRead secondRead make member represent finish
      read) :
    Reads spelled read (record? first second firstMeaning secondMeaning make) := by
  intro value rest
  cases value with
  | null => exact reader.others _ _ nofun nofun
  | bool truth => exact reader.others _ _ nofun nofun
  | number number => exact reader.others _ _ nofun nofun
  | string text => exact reader.others _ _ nofun nofun
  | array items =>
      rw [lexemes, List.cons_append, List.cons_append, List.append_assoc, reader.lists]
      exact twoItems_lexemes firstReads secondReads record first second make items rest
  | object members =>
      have filled := twoMembers_lexemes skippable different firstReads.option secondReads.option
        reader.members members rest
      rw [lexemes, List.cons_append, List.cons_append, List.append_assoc, reader.objects,
        toOption_bind_ok, List.singleton_append, filled, record?_object]
      simp only [Option.map_bind, Option.map_map, Function.comp_def, reader.finished]

/-! ### What is written -/

/-- What is written for a value means the value. It is never null and has no numbers in it. -/
structure Written (encode : α → Json) (meaning : Json → Option α) : Prop where
  means : ∀ value, meaning (encode value) = some value
  present : ∀ value, encode value ≠ .null
  numberless : ∀ value, (encode value).isNumberless = true

namespace Written

variable {encode : α → Json} {meaning : Json → Option α}

theorem truth : Written .bool truth? :=
  ⟨fun _ => rfl, fun _ => nofun, fun _ => rfl⟩

theorem choice {variants : List (String × α)} {name : α → String}
    (named : ∀ value, variants.lookup (name value) = some value) :
    Written (fun value => .string (name value)) (choice? variants) :=
  ⟨named, fun _ => nofun, fun _ => rfl⟩

theorem nullable (written : Written encode meaning) (value : Option α) :
    nullable? meaning (ofOption encode value) = some value := by
  cases value with
  | none => rfl
  | some value =>
      change nullable? meaning (encode value) = _
      rw [nullable?_of_present (written.present value), written.means]
      rfl

theorem isNumberless_ofOption (written : Written encode meaning) (value : Option α) :
    (ofOption encode value).isNumberless = true := by
  cases value with
  | none => rfl
  | some value => exact written.numberless value

theorem dict (written : Written encode meaning) : Written (ofDict encode) (dict? meaning) where
  means := fun dict => by
    have members (entries : List (String × α)) :
        ((entries.map fun entry => (entry.1, encode entry.2)).mapM
          fun member => (meaning member.2).map (member.1, ·)) = some entries := by
      induction entries with
      | nil => rfl
      | cons entry entries ih =>
          rw [List.map_cons, List.mapM_cons, written.means, ih]
          rfl
    rw [ofDict, dict?, members, Option.map_some, Dict.ofList_entries]
  present := fun _ => nofun
  numberless := fun dict => by
    have members (entries : List (String × α)) :
        haveNumberless (entries.map fun entry => (entry.1, encode entry.2)) = true := by
      induction entries with
      | nil => rfl
      | cons entry entries ih =>
          exact Bool.and_eq_true_iff.mpr ⟨written.numberless entry.2, ih⟩
    exact members dict.entries

theorem fields {first second : String} (different : first ≠ second) (one two : Json) :
    fields? first second (.object [(first, one), (second, two)]) = some (some one, some two) := by
  simp only [fields?, unique?, List.filter_cons, List.filter_nil, different, different.symm,
    decide_true, decide_false, if_true, if_false, Bool.false_eq_true, Option.bind_some,
    Option.map_some]

/-- A record is written field by field. -/
theorem record {first second : String} (different : first ≠ second)
    {firstEncode : α → Json} {secondEncode : β → Json} {firstMeaning : Json → Option α}
    {secondMeaning : Json → Option β} (firstWritten : Written firstEncode firstMeaning)
    (secondWritten : Written secondEncode secondMeaning) {make : Option α → Option β → γ}
    {one : γ → Option α} {two : γ → Option β}
    (made : ∀ value, make (one value) (two value) = value) :
    Written (fun value => .object [(first, ofOption firstEncode (one value)),
      (second, ofOption secondEncode (two value))])
      (record? first second firstMeaning secondMeaning make) where
  means := fun value => by
    simp only [record?, fields different, Option.bind_some, optional?, firstWritten.nullable,
      secondWritten.nullable, Option.map_some, made]
  present := fun _ => nofun
  numberless := fun value => by
    simp only [isNumberless, haveNumberless, firstWritten.isNumberless_ofOption,
      secondWritten.isNumberless_ofOption, Bool.and_true]

end Written

end TreeLint.Json
