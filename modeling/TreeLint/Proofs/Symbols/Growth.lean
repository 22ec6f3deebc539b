import Mathlib.Data.List.Induction
import TreeLint.Proofs.Symbols.History

/-!
# How tables of symbols grow

A declaration adds to a table and takes nothing back: every type keeps its name and its kind and
gains members behind those that it has, and every method stays what it is
(`TreeLint.SymbolTable.Grows`). So what a host has been told about an identity holds however it goes
on (`TreeLint.BoundSymbols.ofSteps_grows`).
-/

namespace TreeLint

/-- What a list with one more item holds at an index. -/
theorem getElem?_concat {α : Type} (items : List α) (item : α) (index : Nat) :
    (items ++ [item])[index]? = if index = items.length then some item else items[index]? := by
  rcases Nat.lt_trichotomy index items.length with below | here | above
  · rw [List.getElem?_append_left below, if_neg (Nat.ne_of_lt below)]
  · rw [here, List.getElem?_concat_length, if_pos rfl]
  · have outside : (items ++ [item]).length ≤ index := by
      rw [List.length_append, List.length_singleton]
      omega
    rw [List.getElem?_eq_none outside, if_neg (Nat.ne_of_gt above),
      List.getElem?_eq_none (Nat.le_of_lt above)]

namespace SymbolTable

/-- The identity of the type that is declared next. -/
def nextType (table : SymbolTable) : TypeId :=
  ⟨table.types.length⟩

/-- The identity of the method that is declared next. -/
def nextMethod (table : SymbolTable) : MethodId :=
  ⟨table.methods.length⟩

/-- A type with a further member, if it is the one with an identity. -/
def joined (owner : TypeId) (member : MethodId) (id : TypeId) (type : TypeSymbol) : TypeSymbol :=
  if owner = id then { type with members := type.members ++ [member] } else type

variable {table : SymbolTable} {name : String} {kind : TypeKind} {id owner : TypeId}

theorem addType_of_known (known : table.typeByName? name = some id) (kind : TypeKind) :
    table.addType name kind = (id, table) := by
  simp only [addType, known]

theorem addType_of_fresh (fresh : table.typeByName? name = none) (kind : TypeKind) :
    table.addType name kind = (table.nextType,
      { table with
        types := table.types ++ [⟨name, kind, []⟩]
        names := (name, table.nextType) :: table.names }) := by
  simp only [addType, fresh]
  rfl

theorem type?_addType_of_fresh (fresh : table.typeByName? name = none) (kind : TypeKind)
    (id : TypeId) : (table.addType name kind).2.type? id =
      if id = table.nextType then some ⟨name, kind, []⟩ else table.type? id := by
  rw [addType_of_fresh fresh]
  change (table.types ++ [_])[id.index]? = _
  rw [getElem?_concat]
  by_cases same : id.index = table.types.length
  · have next : id = table.nextType := congrArg TypeId.mk same
    rw [if_pos same, if_pos next]
  · have other : id ≠ table.nextType := fun next => same (congrArg TypeId.index next)
    rw [if_neg same, if_neg other]
    rfl

theorem method?_addType (name : String) (kind : TypeKind) (id : MethodId) :
    (table.addType name kind).2.method? id = table.method? id := by
  cases known : table.typeByName? name with
  | some found => rw [addType_of_known known]
  | none =>
      rw [addType_of_fresh known]
      rfl

variable {parameters : List (String × TypeId)}

theorem mem_members_joined {member new : MethodId} {type : TypeSymbol} :
    member ∈ (joined owner new id type).members ↔
      member ∈ type.members ∨ owner = id ∧ member = new := by
  by_cases same : owner = id
  · rw [joined, if_pos same, List.mem_append, List.mem_singleton]
    exact or_congr_right (iff_and_self.mpr fun _ => same)
  · rw [joined, if_neg same]
    exact (or_iff_left fun joins => same joins.1).symm

theorem type?_addMethod (id : TypeId) : (table.addMethod owner name parameters).2.type? id =
    (table.type? id).map (joined owner table.nextMethod id) := by
  change (table.types.modify owner.index _)[id.index]? = _
  rw [List.getElem?_modify]
  refine congrArg (Option.map · (table.type? id)) (funext fun type => ?_)
  by_cases same : owner.index = id.index
  · have owns : owner = id := congrArg TypeId.mk same
    rw [joined, if_pos same, if_pos owns]
    rfl
  · have other : owner ≠ id := fun owns => same (congrArg TypeId.index owns)
    rw [joined, if_neg same, if_neg other]

theorem method?_addMethod (id : MethodId) : (table.addMethod owner name parameters).2.method? id =
    if id = table.nextMethod then some ⟨name, owner, numbered 0 parameters⟩
    else table.method? id := by
  change (table.methods ++ [_])[id.index]? = _
  rw [getElem?_concat]
  by_cases same : id.index = table.methods.length
  · have next : id = table.nextMethod := congrArg MethodId.mk same
    rw [if_pos same, if_pos next]
  · have other : id ≠ table.nextMethod := fun next => same (congrArg MethodId.index next)
    rw [if_neg same, if_neg other]
    rfl

/-! ### Growth -/

/-- A table has grown out of an earlier one. -/
structure Grows (earlier later : SymbolTable) : Prop where
  types : ∀ id type, earlier.type? id = some type → ∃ grown, later.type? id = some grown ∧
    grown.name = type.name ∧ grown.kind = type.kind ∧ type.members <+: grown.members
  methods : ∀ id method, earlier.method? id = some method → later.method? id = some method

namespace Grows

theorem refl (table : SymbolTable) : table.Grows table where
  types := fun _ type found => ⟨type, found, rfl, rfl, List.prefix_rfl⟩
  methods := fun _ _ found => found

theorem trans {first second third : SymbolTable} (former : first.Grows second)
    (latter : second.Grows third) : first.Grows third where
  types := by
    intro id type found
    obtain ⟨grown, there, name, kind, members⟩ := former.types id type found
    obtain ⟨whole, later, nameToo, kindToo, membersToo⟩ := latter.types id grown there
    exact ⟨whole, later, nameToo.trans name, kindToo.trans kind, members.trans membersToo⟩
  methods := fun id method found => latter.methods id method (former.methods id method found)

end Grows

theorem lt_of_type? {type : TypeSymbol} (found : table.type? id = some type) :
    id.index < table.nextType.index :=
  (List.getElem?_eq_some_iff.mp found).1

theorem lt_of_method? {id : MethodId} {method : MethodSymbol}
    (found : table.method? id = some method) : id.index < table.nextMethod.index :=
  (List.getElem?_eq_some_iff.mp found).1

theorem grows_addType (table : SymbolTable) (name : String) (kind : TypeKind) :
    table.Grows (table.addType name kind).2 where
  types := by
    intro id type found
    refine ⟨type, ?_, rfl, rfl, List.prefix_rfl⟩
    cases known : table.typeByName? name with
    | some taken =>
        rw [addType_of_known known]
        exact found
    | none =>
        have other : id ≠ table.nextType := by
          intro next
          have below := lt_of_type? found
          rw [next] at below
          exact Nat.lt_irrefl _ below
        rw [type?_addType_of_fresh known, if_neg other]
        exact found
  methods := by
    intro id method found
    rw [method?_addType]
    exact found

theorem grows_addMethod (table : SymbolTable) (owner : TypeId) (name : String)
    (parameters : List (String × TypeId)) :
    table.Grows (table.addMethod owner name parameters).2 where
  types := by
    intro id type found
    refine ⟨joined owner table.nextMethod id type, ?_, ?_⟩
    · rw [type?_addMethod, found, Option.map_some]
    · unfold joined
      split
      · exact ⟨rfl, rfl, List.prefix_append _ _⟩
      · exact ⟨rfl, rfl, List.prefix_rfl⟩
  methods := by
    intro id method found
    have other : id ≠ table.nextMethod := by
      intro next
      have below := lt_of_method? found
      rw [next] at below
      exact Nat.lt_irrefl _ below
    rw [method?_addMethod, if_neg other]
    exact found

end SymbolTable

/-! ### Histories -/

/-- The method that a step declares: the type on which it is declared, its name and its
parameters. -/
def SymbolStep.declaration? : SymbolStep → Option (TypeId × String × List (String × TypeId))
  | .addMethod owner name parameters => some (owner, name, parameters)
  | .addConstructor owner parameters => some (owner, MethodSymbol.constructorName, parameters)
  | .addType _ _ | .bind _ _ => none

namespace BoundSymbols

variable {bound : BoundSymbols} {owner : TypeId} {name : String}
  {parameters : List (String × TypeId)}

theorem symbols_apply_of_declaration {step : SymbolStep}
    (declares : step.declaration? = some (owner, name, parameters)) :
    (bound.apply step).symbols = (bound.symbols.addMethod owner name parameters).2 := by
  cases step with
  | addType name kind => cases declares
  | addMethod owner name parameters =>
      cases declares
      rfl
  | addConstructor owner parameters =>
      cases declares
      rfl
  | bind call method => cases declares

theorem grows_apply (bound : BoundSymbols) (step : SymbolStep) :
    bound.symbols.Grows (bound.apply step).symbols := by
  cases step with
  | addType name kind => exact bound.symbols.grows_addType name kind
  | addMethod owner name parameters => exact bound.symbols.grows_addMethod owner name parameters
  | addConstructor owner parameters => exact bound.symbols.grows_addMethod owner _ parameters
  | bind call method => exact .refl _

theorem grows_foldl (bound : BoundSymbols) (steps : List SymbolStep) :
    bound.symbols.Grows (steps.foldl apply bound).symbols := by
  induction steps generalizing bound with
  | nil => exact .refl _
  | cons step steps ih => exact (bound.grows_apply step).trans (ih (bound.apply step))

theorem ofSteps_append (before after : List SymbolStep) :
    ofSteps (before ++ after) = after.foldl apply (ofSteps before) :=
  List.foldl_append

theorem ofSteps_concat (steps : List SymbolStep) (step : SymbolStep) :
    ofSteps (steps ++ [step]) = (ofSteps steps).apply step :=
  ofSteps_append steps [step]

/-- What has been declared stays declared. -/
theorem ofSteps_grows (before after : List SymbolStep) :
    (ofSteps before).symbols.Grows (ofSteps (before ++ after)).symbols := by
  rw [ofSteps_append]
  exact (ofSteps before).grows_foldl after

/-- A method was declared on a type when the type itself was declared already. -/
def Joins (steps : List SymbolStep) (owner : TypeId) (member : MethodId) : Prop :=
  ∃ before step after declaration, steps = before ++ step :: after ∧
    step.declaration? = some (owner, declaration) ∧
    ((ofSteps before).symbols.type? owner).isSome = true ∧
    member = (ofSteps before).symbols.nextMethod

theorem joins_concat_iff {steps : List SymbolStep} {step : SymbolStep} {member : MethodId} :
    Joins (steps ++ [step]) owner member ↔ Joins steps owner member ∨
      (∃ declaration, step.declaration? = some (owner, declaration)) ∧
        ((ofSteps steps).symbols.type? owner).isSome = true ∧
        member = (ofSteps steps).symbols.nextMethod := by
  constructor
  · rintro ⟨before, other, after, declaration, split, declares, declared, rfl⟩
    rcases List.eq_nil_or_concat after with rfl | ⟨rest, last, rfl⟩
    · obtain ⟨rfl, same⟩ := List.append_inj' split rfl
      cases same
      exact .inr ⟨⟨declaration, declares⟩, declared, rfl⟩
    · rw [List.concat_eq_append, ← List.cons_append, ← List.append_assoc] at split
      obtain ⟨rfl, -⟩ := List.append_inj' split rfl
      exact .inl ⟨before, other, rest, declaration, rfl, declares, declared, rfl⟩
  · rintro (⟨before, other, after, declaration, rfl, declares, declared, rfl⟩ |
      ⟨⟨declaration, declares⟩, declared, rfl⟩)
    · refine ⟨before, other, after ++ [step], declaration, ?_, declares, declared, rfl⟩
      rw [List.append_assoc, List.cons_append]
    · exact ⟨steps, step, [], declaration, rfl, declares, declared, rfl⟩

theorem joins_concat_iff_of_none {steps : List SymbolStep} {step : SymbolStep}
    (declares : step.declaration? = none) {member : MethodId} :
    Joins (steps ++ [step]) owner member ↔ Joins steps owner member := by
  rw [joins_concat_iff, declares]
  refine or_iff_left ?_
  rintro ⟨⟨declaration, declared⟩, -⟩
  cases declared

theorem Joins.declared {steps : List SymbolStep} {member : MethodId}
    (joins : Joins steps owner member) :
    ∃ type, (ofSteps steps).symbols.type? owner = some type := by
  obtain ⟨before, step, after, declaration, rfl, -, declared, -⟩ := joins
  obtain ⟨type, found⟩ := Option.isSome_iff_exists.mp declared
  obtain ⟨grown, there, -⟩ := (ofSteps_grows before (step :: after)).types owner type found
  exact ⟨grown, there⟩

end BoundSymbols

end TreeLint
