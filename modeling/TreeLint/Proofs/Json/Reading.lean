import TreeLint.Json.Typed
import TreeLint.Proofs.Json.Spelling

/-!
# What readers make of values

A reader that works on lexemes is described by what it makes of a value: it takes the lexemes of
the value, and leaves those after them, exactly if the value has a meaning of the expected type
(`TreeLint.Json.Reads`). The readers of the common shapes are described in this way, a skipped
value among them (`TreeLint.Json.skip_lexemes`). The members of an object are added one by one to
what has been read (`TreeLint.Json.members_lexemes`).
-/

namespace TreeLint.Json

variable {α β σ τ : Type} {spelled : Number → Reading Number}

theorem toOption_bind (first : Except Problem α) (next : α → Except Problem β) :
    (first >>= next).toOption = first.toOption.bind fun value => (next value).toOption := by
  cases first <;> rfl

theorem toOption_bind_ok (first : Except Problem α) (change : α → β) :
    (first >>= fun value => Except.ok (change value)).toOption = first.toOption.map change := by
  cases first <;> rfl

theorem eq_ok_of_toOption {result : Except Problem α} {value : α}
    (given : result.toOption = some value) : result = .ok value := by
  cases result with
  | error problem => cases given
  | ok other => exact congrArg Except.ok (Option.some.inj given)

/-! ### Skipped values -/

namespace Skip

/-- Skipping on after a complete value. -/
def resume (opened : List Enclosure) (rest : List Lexeme) : Except Fault (List Lexeme) :=
  match after opened with
  | none => .ok rest
  | some skip => skip.run rest

/-- Where the items or members of an enclosure go on, from the first or a later one on. -/
def inside (isFirst : Bool) (enclosure : Enclosure) (opened : List Enclosure) : Skip :=
  ⟨if isFirst then .first else .later, enclosure :: opened⟩

theorem run_cons {skip next : Skip} {lexeme : Lexeme} (taken : skip.take lexeme = .ok (some next))
    (rest : List Lexeme) : skip.run (lexeme :: rest) = next.run rest := by
  rw [run, taken]

theorem run_last {skip : Skip} {lexeme : Lexeme} {opened : List Enclosure}
    (taken : skip.take lexeme = .ok (after opened)) (rest : List Lexeme) :
    skip.run (lexeme :: rest) = resume opened rest := by
  rw [run, taken, resume]
  cases after opened <;> rfl

/-- An item is skipped as any value is. -/
theorem run_item (isFirst : Bool) (item : Json) (opened : List Enclosure) (rest : List Lexeme) :
    (inside isFirst .list opened).run
        ((if isFirst then [] else [.comma]) ++ (item.lexemes spelled ++ rest)) =
      (Skip.mk .value (.list :: opened)).run (item.lexemes spelled ++ rest) := by
  cases isFirst with
  | false => rfl
  | true => cases item <;> rfl

/-- What follows the name and the colon of a member is skipped as any value is. -/
theorem run_member (isFirst : Bool) (name : String) (opened : List Enclosure)
    (rest : List Lexeme) :
    (inside isFirst .object opened).run
        ((if isFirst then [] else [.comma]) ++ stringLexeme name :: .colon :: rest) =
      (Skip.mk .value (.object :: opened)).run rest := by
  cases isFirst <;> rfl

mutual

/-- The lexemes of a value are skipped, and no more of them. -/
theorem run_lexemes (skippable : Skippable spelled) (value : Json) (opened : List Enclosure)
    (rest : List Lexeme) :
    (Skip.mk .value opened).run (value.lexemes spelled ++ rest) = resume opened rest := by
  cases value with
  | null => exact run_last rfl rest
  | bool truth => exact run_last rfl rest
  | number number =>
      refine run_last ?_ rest
      change (spelled number).skipped.map _ = _
      rw [skippable number]
      rfl
  | string text => exact run_last rfl rest
  | array items =>
      have opens : (Skip.mk .value opened).take .openList = .ok (some (inside true .list opened)) :=
        rfl
      rw [lexemes, List.cons_append, List.cons_append, run_cons opens, List.append_assoc]
      exact run_itemLexemes skippable true items opened rest
  | object members =>
      have opens : (Skip.mk .value opened).take .openObject =
          .ok (some (inside true .object opened)) := rfl
      rw [lexemes, List.cons_append, List.cons_append, run_cons opens, List.append_assoc]
      exact run_memberLexemes skippable true members opened rest

theorem run_itemLexemes (skippable : Skippable spelled) (isFirst : Bool) (items : List Json)
    (opened : List Enclosure) (rest : List Lexeme) :
    (inside isFirst .list opened).run (itemLexemes spelled isFirst items ++ .closeList :: rest) =
      resume opened rest := by
  cases items with
  | nil => cases isFirst <;> exact run_last rfl rest
  | cons item items =>
      have later := run_itemLexemes skippable false items opened rest
      rw [itemLexemes, List.append_assoc, List.append_assoc, run_item,
        run_lexemes skippable item]
      exact later

theorem run_memberLexemes (skippable : Skippable spelled) (isFirst : Bool)
    (members : List (String × Json)) (opened : List Enclosure) (rest : List Lexeme) :
    (inside isFirst .object opened).run
        (memberLexemes spelled isFirst members ++ .closeObject :: rest) = resume opened rest := by
  cases members with
  | nil => cases isFirst <;> exact run_last rfl rest
  | cons member members =>
      obtain ⟨name, value⟩ := member
      have later := run_memberLexemes skippable false members opened rest
      rw [memberLexemes, List.append_assoc, List.append_assoc, List.cons_append, List.cons_append,
        run_member, run_lexemes skippable value]
      exact later

end

end Skip

theorem skip_lexemes (skippable : Skippable spelled) (value : Json) (rest : List Lexeme) :
    Reader.skip (value.lexemes spelled ++ rest) = .ok ((), rest) := by
  rw [Reader.skip, Skip.run_lexemes skippable]
  rfl

/-! ### Values of an expected type -/

/-- A reader takes a value for what it means, and takes no other values. -/
def Reads (spelled : Number → Reading Number) (read : Reader α) (meaning : Json → Option α) :
    Prop :=
  ∀ value rest,
    (read (value.lexemes spelled ++ rest)).toOption = (meaning value).map (·, rest)

/-- The truth value that a value is. -/
def truth? : Json → Option Bool
  | .bool truth => some truth
  | _ => none

/-- One of several names, alone or as the only member of an object, where it is null. -/
def choice? (variants : List (String × α)) : Json → Option α
  | .string name => variants.lookup name
  | .object [(name, .null)] => variants.lookup name
  | _ => none

/-- What a value means that may also be null. -/
def nullable? (meaning : Json → Option α) : Json → Option (Option α)
  | .null => some none
  | value => (meaning value).map some

/-- A dictionary of values, where the last member of a name counts. -/
def dict? (meaning : Json → Option α) : Json → Option (Dict α)
  | .object members =>
      (members.mapM fun member => (meaning member.2).map (member.1, ·)).map Dict.ofList
  | _ => none

theorem Reads.bool : Reads spelled Reader.bool truth? := by
  intro value rest
  cases value <;> rfl

theorem toOption_variant (variants : List (String × α)) (name : String) :
    (Decode.variant variants name).toOption = variants.lookup name := by
  unfold Decode.variant
  split
  · next known => rw [known]; rfl
  · next unknown => rw [unknown]; rfl

theorem Reads.unit : Reads spelled Reader.unit fun value =>
    match value with
    | .null => some ()
    | _ => none := by
  intro value rest
  cases value <;> rfl

/-- A choice that is written as an object, up to the value of its member. -/
theorem choice_object (variants : List (String × α)) (name : String) (lexemes : List Lexeme) :
    (Reader.choice variants (.openObject :: stringLexeme name :: .colon :: lexemes)).toOption =
      (variants.lookup name).bind fun value =>
        (Reader.unit lexemes).toOption.bind fun read =>
          match read.2 with
          | .closeObject :: rest => some (value, rest)
          | _ => none := by
  change (Decode.variant variants name >>= _).toOption = _
  rw [toOption_bind, toOption_variant]
  congr 1
  funext value
  change (Reader.unit lexemes >>= _).toOption = _
  rw [toOption_bind]
  congr 1
  funext read
  obtain ⟨_, rest⟩ := read
  cases rest with
  | nil => rfl
  | cons lexeme rest => cases lexeme <;> rfl

theorem Reads.choice (variants : List (String × α)) :
    Reads spelled (Reader.choice variants) (choice? variants) := by
  intro value rest
  cases value with
  | null => rfl
  | bool truth => rfl
  | number number => rfl
  | array items => rfl
  | string text =>
      change (Decode.variant variants text >>= _).toOption = _
      rw [toOption_bind, toOption_variant, choice?]
      cases variants.lookup text <;> rfl
  | object members =>
      cases members with
      | nil => rfl
      | cons member members =>
          obtain ⟨name, content⟩ := member
          have whole : (Json.object ((name, content) :: members)).lexemes spelled ++ rest =
              .openObject :: stringLexeme name :: .colon :: (content.lexemes spelled ++
                (memberLexemes spelled false members ++ .closeObject :: rest)) := by
            simp only [lexemes, memberLexemes, if_true, List.nil_append, List.cons_append,
              List.append_assoc]
          rw [whole, choice_object, Reads.unit]
          cases content with
          | null =>
              cases members with
              | nil =>
                  change _ = (variants.lookup name).map _
                  cases variants.lookup name <;> rfl
              | cons later members => cases variants.lookup name <;> rfl
          | _ => cases variants.lookup name <;> rfl

theorem nullable?_of_present {meaning : Json → Option α} {value : Json} (present : value ≠ .null) :
    nullable? meaning value = (meaning value).map some := by
  unfold nullable?
  split
  · exact absurd rfl present
  · rfl

theorem exists_nullable {meaning : Json → Option α} {value : Json}
    (given : (∃ result, meaning value = some result) ∨ value = .null) :
    ∃ result, nullable? meaning value = some result := by
  by_cases null : value = .null
  · exact ⟨none, by rw [null, nullable?]⟩
  · obtain ⟨result, known⟩ := given.resolve_right null
    exact ⟨some result, by rw [nullable?_of_present null, known, Option.map_some]⟩

theorem option_of_present (read : Reader α) {value : Json} (present : value ≠ .null)
    (rest : List Lexeme) :
    Reader.option read (value.lexemes spelled ++ rest) =
      read (value.lexemes spelled ++ rest) >>= fun result => .ok (some result.1, result.2) := by
  cases value with
  | null => exact absurd rfl present
  | _ => rfl

theorem Reads.option {read : Reader α} {meaning : Json → Option α}
    (reads : Reads spelled read meaning) :
    Reads spelled (Reader.option read) (nullable? meaning) := by
  intro value rest
  by_cases null : value = .null
  · subst null
    rfl
  · rw [option_of_present read null, toOption_bind_ok, reads, nullable?_of_present null,
      Option.map_map, Option.map_map]
    rfl

theorem Reads.memberValue {read : Reader α} {meaning : Json → Option α}
    (reads : Reads spelled read meaning) (value : Json) (rest : List Lexeme) :
    (Reader.memberValue read (.colon :: (value.lexemes spelled ++ rest))).toOption =
      (meaning value).map (·, rest) :=
  reads value rest

/-! ### Dictionaries -/

theorem find?_insertAll (dict : Dict α) (entries : List (String × α)) (key : String) :
    (dict.insertAll entries).find? key = (entries.reverse.lookup key).or (dict.find? key) := by
  induction entries generalizing dict with
  | nil => rfl
  | cons entry entries ih =>
      change ((dict.insert entry.1 entry.2).insertAll entries).find? key = _
      rw [ih, Dict.find?_insert, List.reverse_cons, List.lookup_append, Option.or_assoc,
        Dict.lookup_entry]
      split <;> rfl

/-- Adding the members of an object one by one gives the dictionary of all of them. -/
theorem foldlM_insert (meaning : Json → Option α) (members : List (String × Json))
    (dict : Dict α) :
    members.foldlM (fun dict member => (meaning member.2).map (dict.insert member.1)) dict =
      (members.mapM fun member => (meaning member.2).map (member.1, ·)).map dict.insertAll := by
  induction members generalizing dict with
  | nil => rfl
  | cons member members ih =>
      rw [List.foldlM_cons, List.mapM_cons]
      cases meaning member.2 with
      | none => rfl
      | some value =>
          have later := ih (dict.insert member.1 value)
          change members.foldlM _ (dict.insert member.1 value) =
            Option.map dict.insertAll (Option.bind (members.mapM _) fun entries =>
              some ((member.1, value) :: entries))
          rw [later, Option.map_bind]
          exact Option.map_eq_bind

theorem lookup_map_values (change : α → β) (entries : List (String × α)) (key : String) :
    (entries.map fun entry => (entry.1, change entry.2)).lookup key =
      (entries.lookup key).map change := by
  induction entries with
  | nil => rfl
  | cons entry entries ih =>
      rw [List.map_cons, Dict.lookup_entry, Dict.lookup_entry, ih]
      split <;> rfl

/-- If all members have a meaning, these are the entries of the dictionary. -/
theorem map_members_of_mapM {meaning : Json → Option α} {members : List (String × Json)}
    {entries : List (String × α)}
    (all : (members.mapM fun member => (meaning member.2).map (member.1, ·)) = some entries) :
    (members.map fun member => (member.1, meaning member.2)) =
      entries.map fun entry => (entry.1, some entry.2) := by
  induction members generalizing entries with
  | nil =>
      cases all
      rfl
  | cons member members ih =>
      rw [List.mapM_cons] at all
      obtain ⟨entry, here, all⟩ := Option.bind_eq_some_iff.mp all
      obtain ⟨value, known, rfl⟩ := Option.map_eq_some_iff.mp here
      obtain ⟨later, rest, all⟩ := Option.bind_eq_some_iff.mp all
      cases all
      rw [List.map_cons, List.map_cons, ih rest, known]

/-- Members that all have a meaning are a dictionary. -/
theorem exists_dict {meaning : Json → Option α} {members : List (String × Json)}
    (all : ∀ member ∈ members, ∃ value, meaning member.2 = some value) :
    ∃ dict, dict? meaning (.object members) = some dict := by
  suffices ∃ entries,
      (members.mapM fun member => (meaning member.2).map (member.1, ·)) = some entries by
    obtain ⟨entries, whole⟩ := this
    exact ⟨.ofList entries, by rw [dict?, whole, Option.map_some]⟩
  induction members with
  | nil => exact ⟨[], rfl⟩
  | cons member members ih =>
      obtain ⟨value, here⟩ := all member List.mem_cons_self
      obtain ⟨entries, later⟩ := ih fun other listed => all other (List.mem_cons_of_mem _ listed)
      exact ⟨(member.1, value) :: entries, by rw [List.mapM_cons, here, later]; rfl⟩

/-- In a dictionary of members, a key has the value given last. -/
theorem find?_dict {meaning : Json → Option α} {members : List (String × Json)} {dict : Dict α}
    (described : dict? meaning (.object members) = some dict) (key : String) :
    dict.find? key = (members.reverse.lookup key).bind meaning := by
  obtain ⟨entries, all, rfl⟩ := Option.map_eq_some_iff.mp described
  have values := congrArg (fun list => list.reverse.lookup key) (map_members_of_mapM all)
  simp only [← List.map_reverse, lookup_map_values] at values
  rw [Dict.ofList, find?_insertAll]
  cases given : members.reverse.lookup key with
  | none =>
      rw [given, Option.map_none] at values
      rw [Option.map_eq_none_iff.mp values.symm]
      rfl
  | some value =>
      rw [given, Option.map_some] at values
      obtain ⟨entry, kept, same⟩ := Option.map_eq_some_iff.mp values.symm
      rw [kept, Option.bind_some, ← same]
      rfl

/-! ### Members of objects -/

theorem nextName_member (isFirst : Bool) (name : String) (rest : List Lexeme) :
    Reader.nextName isFirst ((if isFirst then [] else [.comma]) ++ stringLexeme name :: rest) =
      .ok (some name, rest) := by
  cases isFirst <;> rfl

theorem length_le_memberLexemes (isFirst : Bool) (members : List (String × Json)) :
    members.length ≤ (memberLexemes spelled isFirst members).length := by
  induction members generalizing isFirst with
  | nil => exact Nat.zero_le _
  | cons member members ih =>
      have later := ih false
      simp only [memberLexemes, List.length_append, List.length_cons]
      omega

section Members

variable {member : σ → String → Reader σ} {represent : τ → σ} {step : τ → String × Json → Option τ}

/-- If reading one member adds to what has been read as a step does, reading the members of an
object does so member by member. The states of the reader may hold more than the steps tell. -/
theorem members_lexemes
    (here : ∀ state name value rest,
      (member (represent state) name (.colon :: (value.lexemes spelled ++ rest))).toOption =
        (step state (name, value)).map fun state => (represent state, rest))
    (members : List (String × Json)) (isFirst : Bool) (state : τ) (rest : List Lexeme)
    {bound : Nat} (enough : members.length < bound) :
    (Reader.members member bound isFirst (represent state)
        (memberLexemes spelled isFirst members ++ .closeObject :: rest)).toOption =
      (members.foldlM step state).map fun state => (represent state, rest) := by
  induction members generalizing isFirst state bound with
  | nil =>
      obtain ⟨bound, rfl⟩ := Nat.exists_eq_add_one_of_ne_zero (Nat.ne_of_gt enough)
      cases isFirst <;> rfl
  | cons entry members ih =>
      obtain ⟨bound, rfl⟩ := Nat.exists_eq_add_one_of_ne_zero (Nat.ne_zero_of_lt enough)
      obtain ⟨name, value⟩ := entry
      have fits : members.length < bound := Nat.lt_of_succ_lt_succ enough
      rw [memberLexemes, List.append_assoc, List.append_assoc, List.cons_append, List.cons_append,
        Reader.members, nextName_member]
      change (member (represent state) name _ >>= _).toOption = _
      rw [toOption_bind, here, List.foldlM_cons]
      cases step state (name, value) with
      | none => rfl
      | some next => exact ih false next fits

theorem allMembers_lexemes
    (here : ∀ state name value rest,
      (member (represent state) name (.colon :: (value.lexemes spelled ++ rest))).toOption =
        (step state (name, value)).map fun state => (represent state, rest))
    (members : List (String × Json)) (state : τ) (rest : List Lexeme) :
    (Reader.allMembers member (represent state)
        (memberLexemes spelled true members ++ .closeObject :: rest)).toOption =
      (members.foldlM step state).map fun state => (represent state, rest) := by
  refine members_lexemes here members true state rest ?_
  have few : members.length ≤ (memberLexemes spelled true members).length :=
    length_le_memberLexemes true members
  simp only [List.length_append]
  omega

end Members

end TreeLint.Json
