import TreeLint.Dict
import TreeLint.Proofs.Symbols.Growth

/-!
# What a table of symbols holds

Types, methods, the members of types and the index of names are kept apart, and every declaration
touches several of them. Whatever a host declares, and in whichever order, they agree: names and
identities of types correspond to each other, the members of a type are methods of that type in the
order of their declarations, and the positions of parameters are their indexes
(`TreeLint.SymbolTable.Agrees`). So a host finds by a name exactly what has been declared under it
(`TreeLint.BoundSymbols.declarations_agree`).
-/

namespace TreeLint

/-- The containers of a table agree with each other. -/
structure SymbolTable.Agrees (table : SymbolTable) : Prop where
  /-- The index leads from a name to the type that has it, and to no other. -/
  named : ∀ name id, table.typeByName? name = some id ↔
    ∃ type, table.type? id = some type ∧ type.name = name
  /-- The members of a type are in the order of their declarations. -/
  ordered : ∀ id type, table.type? id = some type →
    type.members.Pairwise (·.index < ·.index)
  /-- The members of a type are methods that were declared on it. -/
  owned : ∀ id type, table.type? id = some type → ∀ member ∈ type.members,
    ∃ method, table.method? member = some method ∧ method.containingType = id
  /-- The positions of parameters are their indexes. -/
  counted : ∀ id method, table.method? id = some method →
    method.parameters.map (·.ordinal) = List.range method.arity

namespace SymbolTable

variable {table : SymbolTable}

theorem agrees_empty : empty.Agrees where
  named := by
    intro name id
    constructor
    · exact fun known => nomatch known
    · rintro ⟨type, found, -⟩
      exact nomatch found
  ordered := fun _ _ found => nomatch found
  owned := fun _ _ found => nomatch found
  counted := fun _ _ found => nomatch found

/-- A type has one identity. -/
theorem Agrees.unique (agrees : table.Agrees) {id other : TypeId} {type typeToo : TypeSymbol}
    (found : table.type? id = some type) (foundToo : table.type? other = some typeToo)
    (same : type.name = typeToo.name) : id = other := by
  have known := (agrees.named type.name id).mpr ⟨type, found, rfl⟩
  have knownToo := (agrees.named type.name other).mpr ⟨typeToo, foundToo, same.symm⟩
  exact Option.some.inj (known.symm.trans knownToo)

/-! ### Declaring a type -/

theorem typeByName?_addType_of_fresh {name : String} (fresh : table.typeByName? name = none)
    (kind : TypeKind) (other : String) : (table.addType name kind).2.typeByName? other =
      if other = name then some table.nextType else table.typeByName? other := by
  rw [addType_of_fresh fresh]
  exact Dict.lookup_entry (name, table.nextType) table.names other

theorem ne_nextType {id : TypeId} {type : TypeSymbol} (found : table.type? id = some type) :
    id ≠ table.nextType := by
  rintro rfl
  exact Nat.lt_irrefl _ (lt_of_type? found)

/-- What a table with a further type holds: the type, and what it held before. -/
theorem type?_addType_eq_some_iff {name : String} (fresh : table.typeByName? name = none)
    {kind : TypeKind} {id : TypeId} {type : TypeSymbol} :
    (table.addType name kind).2.type? id = some type ↔
      id = table.nextType ∧ type = ⟨name, kind, []⟩ ∨ table.type? id = some type := by
  rw [type?_addType_of_fresh fresh]
  by_cases next : id = table.nextType
  · rw [if_pos next, Option.some.injEq]
    constructor
    · intro same
      exact .inl ⟨next, same.symm⟩
    · rintro (⟨-, same⟩ | found)
      · exact same.symm
      · exact absurd next (ne_nextType found)
  · rw [if_neg next]
    constructor
    · exact .inr
    · rintro (⟨same, -⟩ | found)
      · exact absurd same next
      · exact found

theorem Agrees.addType (agrees : table.Agrees) (name : String) (kind : TypeKind) :
    (table.addType name kind).2.Agrees := by
  cases known : table.typeByName? name with
  | some id =>
      rw [addType_of_known known]
      exact agrees
  | none =>
      refine ⟨?_, ?_, ?_, ?_⟩
      · intro other id
        rw [typeByName?_addType_of_fresh known]
        simp only [type?_addType_eq_some_iff known]
        by_cases same : other = name
        · rw [if_pos same, Option.some.injEq]
          constructor
          · rintro rfl
            exact ⟨⟨name, kind, []⟩, .inl ⟨rfl, rfl⟩, same.symm⟩
          · rintro ⟨type, ⟨next, -⟩ | found, named⟩
            · exact next.symm
            · -- No type had the name before.
              have taken := (agrees.named other id).mpr ⟨type, found, named⟩
              rw [same, known] at taken
              cases taken
        · rw [if_neg same, agrees.named]
          constructor
          · rintro ⟨type, found, named⟩
            exact ⟨type, .inr found, named⟩
          · rintro ⟨type, ⟨-, rfl⟩ | found, named⟩
            · exact absurd named.symm same
            · exact ⟨type, found, named⟩
      · intro id type found
        rcases (type?_addType_eq_some_iff known).mp found with ⟨-, rfl⟩ | found
        · exact .nil
        · exact agrees.ordered id type found
      · intro id type found member listed
        rw [method?_addType]
        rcases (type?_addType_eq_some_iff known).mp found with ⟨-, rfl⟩ | found
        · exact absurd listed List.not_mem_nil
        · exact agrees.owned id type found member listed
      · intro id method found
        rw [method?_addType] at found
        exact agrees.counted id method found

/-! ### Declaring a method -/

theorem ordinals_numbered (first : Nat) (parameters : List (String × TypeId)) :
    (numbered first parameters).map (·.ordinal) = List.range' first parameters.length := by
  induction parameters generalizing first with
  | nil => rfl
  | cons parameter parameters ih =>
      rw [numbered, List.map_cons, ih, List.length_cons, List.range'_succ]

theorem declared_numbered (first : Nat) (parameters : List (String × TypeId)) :
    (numbered first parameters).map (fun parameter => (parameter.name, parameter.type)) =
      parameters := by
  induction parameters generalizing first with
  | nil => rfl
  | cons parameter parameters ih =>
      rw [numbered, List.map_cons, ih]

theorem ordinals_range (parameters : List (String × TypeId)) :
    (numbered 0 parameters).map (·.ordinal) = List.range (numbered 0 parameters).length := by
  have lengths := congrArg List.length (declared_numbered 0 parameters)
  rw [List.length_map] at lengths
  rw [ordinals_numbered, lengths, List.range_eq_range']

theorem Agrees.addMethod (agrees : table.Agrees) (owner : TypeId) (name : String)
    (parameters : List (String × TypeId)) :
    (table.addMethod owner name parameters).2.Agrees := by
  have grown := (table.grows_addMethod owner name parameters).methods
  refine ⟨?_, ?_, ?_, ?_⟩
  · intro other id
    rw [type?_addMethod]
    change table.typeByName? other = some id ↔ _
    rw [agrees.named]
    simp only [Option.map_eq_some_iff, exists_exists_and_eq_and]
    refine exists_congr fun type => and_congr_right fun _ => ?_
    unfold joined
    split <;> rfl
  · intro id type found
    rw [type?_addMethod, Option.map_eq_some_iff] at found
    obtain ⟨type, found, rfl⟩ := found
    have ordered := agrees.ordered id type found
    unfold joined
    split
    · -- The new method comes behind all that have been declared.
      refine List.pairwise_append.mpr ⟨ordered, List.pairwise_singleton _ _, ?_⟩
      intro member listed next new
      obtain ⟨method, declared, -⟩ := agrees.owned id type found member listed
      rw [List.mem_singleton.mp new]
      exact lt_of_method? declared
    · exact ordered
  · intro id type found member listed
    rw [type?_addMethod, Option.map_eq_some_iff] at found
    obtain ⟨type, found, rfl⟩ := found
    have old (earlier : member ∈ type.members) : ∃ method,
        (table.addMethod owner name parameters).2.method? member = some method ∧
          method.containingType = id := by
      obtain ⟨method, declared, contained⟩ := agrees.owned id type found member earlier
      exact ⟨method, grown member method declared, contained⟩
    unfold joined at listed
    split at listed
    · next same =>
        rcases List.mem_append.mp listed with earlier | new
        · exact old earlier
        · rw [method?_addMethod, if_pos (List.mem_singleton.mp new)]
          exact ⟨_, rfl, same⟩
    · exact old listed
  · intro id method found
    rw [method?_addMethod] at found
    split at found
    · cases found
      exact ordinals_range parameters
    · exact agrees.counted id method found

end SymbolTable

/-! ### Histories -/

namespace BoundSymbols

theorem agrees_apply {bound : BoundSymbols} (agrees : bound.symbols.Agrees) (step : SymbolStep) :
    (bound.apply step).symbols.Agrees := by
  cases step with
  | addType name kind => exact agrees.addType name kind
  | addMethod owner name parameters => exact agrees.addMethod owner name parameters
  | addConstructor owner parameters => exact agrees.addMethod owner _ parameters
  | bind call method => exact agrees

theorem agrees_ofSteps (steps : List SymbolStep) : (ofSteps steps).symbols.Agrees := by
  induction steps using List.reverseRecOn with
  | nil => exact SymbolTable.agrees_empty
  | append_singleton steps step ih =>
      rw [ofSteps_concat]
      exact agrees_apply ih step

/-- The members of a declared type are the methods that were declared on it once the type itself
was declared. -/
theorem mem_members_iff {steps : List SymbolStep} {owner : TypeId} {type : TypeSymbol}
    (found : (ofSteps steps).symbols.type? owner = some type) {member : MethodId} :
    member ∈ type.members ↔ Joins steps owner member := by
  induction steps using List.reverseRecOn generalizing type with
  | nil => exact nomatch found
  | append_singleton steps step ih =>
      rw [ofSteps_concat] at found
      cases declares : step.declaration? with
      | some declaration =>
          obtain ⟨target, name, parameters⟩ := declaration
          rw [symbols_apply_of_declaration declares, SymbolTable.type?_addMethod,
            Option.map_eq_some_iff] at found
          obtain ⟨earlier, found, rfl⟩ := found
          rw [joins_concat_iff, declares, SymbolTable.mem_members_joined, ih found]
          refine or_congr_right ⟨?_, ?_⟩
          · rintro ⟨rfl, rfl⟩
            exact ⟨⟨_, rfl⟩, Option.isSome_iff_exists.mpr ⟨earlier, found⟩, rfl⟩
          · rintro ⟨⟨declaration, declared⟩, -, rfl⟩
            cases declared
            exact ⟨rfl, rfl⟩
      | none =>
          rw [joins_concat_iff_of_none declares]
          cases step with
          | addMethod owner name parameters => cases declares
          | addConstructor owner parameters => cases declares
          | bind call method => exact ih found
          | addType name kind =>
              cases known : (ofSteps steps).symbols.typeByName? name with
              | some id =>
                  refine ih ?_
                  rw [← found, apply, SymbolTable.addType_of_known known]
              | none =>
                  rcases (SymbolTable.type?_addType_eq_some_iff known).mp found with
                    ⟨next, rfl⟩ | found
                  · -- Nothing was declared on the type, since it is new.
                    refine iff_of_false List.not_mem_nil fun joins => ?_
                    obtain ⟨type, found⟩ := joins.declared
                    exact SymbolTable.ne_nextType found next
                  · exact ih found

/-- The identity that a host is given for a type stands for a type with that name, and with that
kind unless the name was taken. -/
theorem type?_of_addType (before after : List SymbolStep) (name : String) (kind : TypeKind) :
    ∃ type, (ofSteps (before ++ .addType name kind :: after)).symbols.type?
        ((ofSteps before).symbols.addType name kind).1 = some type ∧ type.name = name ∧
      ((ofSteps before).symbols.typeByName? name = none → type.kind = kind) := by
  have grown := (((ofSteps before).apply (.addType name kind)).grows_foldl after).types
  rw [ofSteps_append]
  cases known : (ofSteps before).symbols.typeByName? name with
  | some id =>
      obtain ⟨type, found, named⟩ := ((agrees_ofSteps before).named name id).mp known
      have there : ((ofSteps before).apply (.addType name kind)).symbols.type? id = some type := by
        rw [← found, apply, SymbolTable.addType_of_known known]
      obtain ⟨later, foundLater, namedLater, -⟩ := grown id type there
      rw [SymbolTable.addType_of_known known]
      refine ⟨later, foundLater, namedLater.trans named, ?_⟩
      exact fun absent => nomatch absent
  | none =>
      have there : ((ofSteps before).apply (.addType name kind)).symbols.type?
          (ofSteps before).symbols.nextType = some ⟨name, kind, []⟩ :=
        (SymbolTable.type?_addType_eq_some_iff known).mpr (.inl ⟨rfl, rfl⟩)
      obtain ⟨later, foundLater, namedLater, kindLater, -⟩ := grown _ _ there
      rw [SymbolTable.addType_of_fresh known]
      exact ⟨later, foundLater, namedLater, fun _ => kindLater⟩

/-- The identity that a host is given for a method stands for the method as declared. -/
theorem method?_of_declaration {step : SymbolStep} {owner : TypeId} {name : String}
    {parameters : List (String × TypeId)}
    (declares : step.declaration? = some (owner, name, parameters))
    (before after : List SymbolStep) :
    (ofSteps (before ++ step :: after)).symbols.method?
        ((ofSteps before).symbols.addMethod owner name parameters).1 =
      some ⟨name, owner, SymbolTable.numbered 0 parameters⟩ := by
  rw [ofSteps_append]
  refine (((ofSteps before).apply step).grows_foldl after).methods _ _ ?_
  rw [symbols_apply_of_declaration declares, SymbolTable.method?_addMethod]
  exact if_pos rfl

theorem mem_membersNamed_iff {bound : BoundSymbols} {owner : TypeId} {name : String}
    {id : MethodId} : id ∈ bound.model.membersNamed owner name ↔
      ∃ type, bound.symbols.type? owner = some type ∧ id ∈ type.members ∧
        ∃ method, bound.symbols.method? id = some method ∧ method.name = name := by
  change _ ↔ ∃ type, bound.model.type? owner = some type ∧ _
  unfold SemanticModel.membersNamed
  cases bound.model.type? owner with
  | none =>
      refine iff_of_false List.not_mem_nil ?_
      rintro ⟨type, found, -⟩
      cases found
  | some type =>
      have named : (bound.model.method? id).any (·.name = name) = true ↔
          ∃ method, bound.symbols.method? id = some method ∧ method.name = name := by
        simp only [Option.any_eq_true, decide_eq_true_eq]
        rfl
      rw [List.mem_filter, named]
      constructor
      · rintro ⟨listed, method⟩
        exact ⟨type, rfl, listed, method⟩
      · rintro ⟨_, same, listed, method⟩
        cases same
        exact ⟨listed, method⟩

theorem pairwise_membersNamed {bound : BoundSymbols} (agrees : bound.symbols.Agrees)
    (owner : TypeId) (name : String) :
    (bound.model.membersNamed owner name).Pairwise (·.index < ·.index) := by
  unfold SemanticModel.membersNamed
  cases found : bound.model.type? owner with
  | none => exact .nil
  | some type => exact (agrees.ordered owner type found).filter _

/-- However a host declares types, methods and constructors, the containers of its table agree, a
name that is taken declares nothing, the members of a type are the methods declared on it since it
was declared itself, an identity stands for good for what the host declared under it, and the
members with a name are found once each in the order of their declarations. -/
theorem declarations_agree (steps : List SymbolStep) :
    (ofSteps steps).symbols.Agrees ∧
    (∀ id other type typeToo, (ofSteps steps).symbols.type? id = some type →
      (ofSteps steps).symbols.type? other = some typeToo → type.name = typeToo.name →
        id = other) ∧
    (∀ name id kind, (ofSteps steps).symbols.typeByName? name = some id →
      (ofSteps steps).symbols.addType name kind = (id, (ofSteps steps).symbols)) ∧
    (∀ owner type member, (ofSteps steps).symbols.type? owner = some type →
      (member ∈ type.members ↔ Joins steps owner member)) ∧
    (∀ before after, steps = before ++ after →
      (ofSteps before).symbols.Grows (ofSteps steps).symbols) ∧
    (∀ before name kind after, steps = before ++ .addType name kind :: after →
      ∃ type, (ofSteps steps).symbols.type? ((ofSteps before).symbols.addType name kind).1 =
          some type ∧ type.name = name ∧
        ((ofSteps before).symbols.typeByName? name = none → type.kind = kind)) ∧
    (∀ before step after owner name parameters, steps = before ++ step :: after →
      step.declaration? = some (owner, name, parameters) →
      ∃ method, (ofSteps steps).symbols.method?
          ((ofSteps before).symbols.addMethod owner name parameters).1 = some method ∧
        method.name = name ∧ method.containingType = owner ∧
        method.parameters.map (fun parameter => (parameter.name, parameter.type)) = parameters) ∧
    ∀ owner name,
      ((ofSteps steps).model.membersNamed owner name).Pairwise (·.index < ·.index) ∧
      ∀ id, id ∈ (ofSteps steps).model.membersNamed owner name ↔
        ∃ type, (ofSteps steps).symbols.type? owner = some type ∧ id ∈ type.members ∧
          ∃ method, (ofSteps steps).symbols.method? id = some method ∧ method.name = name := by
  have agrees := agrees_ofSteps steps
  refine ⟨agrees, ?_, ?_, ?_, ?_, ?_, ?_, ?_⟩
  · intro id other type typeToo found foundToo same
    exact agrees.unique found foundToo same
  · intro name id kind known
    exact SymbolTable.addType_of_known known kind
  · intro owner type member found
    exact mem_members_iff found
  · rintro before after rfl
    exact ofSteps_grows before after
  · rintro before name kind after rfl
    exact type?_of_addType before after name kind
  · rintro before step after owner name parameters rfl declares
    refine ⟨_, method?_of_declaration declares before after, rfl, rfl, ?_⟩
    exact SymbolTable.declared_numbered 0 parameters
  · intro owner name
    refine ⟨pairwise_membersNamed agrees owner name, fun id => ?_⟩
    exact mem_membersNamed_iff

end BoundSymbols

end TreeLint
