import TreeLint.Proofs.Symbols.Extension

/-!
# What a resolution decides

A resolution that no raised signal disturbs is unresolved when the bound method or its type is not
known, ambiguous when some other overload fits, and unambiguous otherwise
(`TreeLint.SemanticModel.resolve_decides`). So the members of a type count as a set: their order and
their repetitions do not show (`TreeLint.SemanticModel.Rearranges.verdict_eq`). At a position behind
all parameters the overloads that fit are those with the same parameter types
(`TreeLint.SemanticModel.fits_beyond_iff`).
-/

namespace TreeLint.SemanticModel

variable {model other : SemanticModel} {bound : MethodId} {position : Nat}

/-- A resolution gives the verdict unless the signal turns out to be raised. -/
theorem resolve_of_unraised {signal : Signal}
    (unraised : (model.resolve bound position signal).2.raised = false) :
    (model.resolve bound position signal).1 = some (model.verdict bound position) := by
  rcases (model.resolve_withholds bound position signal).answered with answer | ⟨-, raised⟩
  · exact answer
  · rw [unraised] at raised
    cases raised

/-! ### Members in another order -/

/-- Another host knows the same methods and the same types. A type may list its members in another
order, and some of them more than once. -/
structure Rearranges (model other : SemanticModel) : Prop where
  methods : other.method? = model.method?
  types : ∀ id, Option.Rel (fun type listed => listed.kind = type.kind ∧
    ∀ member, member ∈ listed.members ↔ member ∈ type.members) (model.type? id) (other.type? id)

namespace Rearranges

theorem symm (rearranges : model.Rearranges other) : other.Rearranges model where
  methods := rearranges.methods.symm
  types := by
    intro id
    have related := rearranges.types id
    generalize model.type? id = known, other.type? id = listed at related ⊢
    cases related with
    | none => exact .none
    | some same => exact .some ⟨same.1.symm, fun member => (same.2 member).symm⟩

theorem wider (rearranges : model.Rearranges other) : model.Extends other where
  methods := by
    intro id method declared
    rw [rearranges.methods]
    exact declared
  types := by
    intro id type known
    have related := rearranges.types id
    rw [known] at related
    generalize other.type? id = listed at related ⊢
    cases related with
    | some same => exact ⟨_, rfl, same.1, fun member => (same.2 member).mpr⟩

/-- The verdict does not depend on how the members of a type are listed. -/
theorem verdict_eq (rearranges : model.Rearranges other) (bound : MethodId) (position : Nat) :
    other.verdict bound position = model.verdict bound position :=
  rearranges.wider.verdict_eq rearranges.symm.wider bound position

end Rearranges

/-! ### Positions behind the parameters -/

/-- At a position behind all parameters an overload fits exactly if it has the same parameter
types. -/
theorem fits_beyond_iff {method candidate : MethodSymbol} (beyond : method.arity ≤ position)
    (arity : candidate.arity = method.arity) : model.Fits position method candidate ↔
      candidate.parameters.map (·.type) = method.parameters.map (·.type) := by
  have width : candidate.parameters.length = method.parameters.length := arity
  have limit : method.parameters.length ≤ position := beyond
  constructor
  · intro fits
    apply List.ext_getElem
    · rw [List.length_map, List.length_map, width]
    · intro index within withinToo
      rw [List.length_map] at within withinToo
      rw [List.getElem_map, List.getElem_map]
      exact fits.elsewhere index _ _ (by omega) (List.getElem?_eq_getElem within)
        (List.getElem?_eq_getElem withinToo)
  · intro same
    refine ⟨fun theirs found => ?_, fun place theirs ours _ found beside => ?_⟩
    · have within := (List.getElem?_eq_some_iff.mp found).1
      omega
    · have types := congrArg (·[place]?) same
      simpa only [List.getElem?_map, found, beside, Option.map_some, Option.some.injEq] using types

/-! ### The decision -/

/-- **What a resolution decides.** The positions of all parameters are their indexes, and the signal
is not raised while a call is resolved. Then the resolution is unresolved exactly if the bound
method or its type is not known. Otherwise it is ambiguous if some other overload fits, and
unambiguous if none does; at a position behind all parameters, these are the overloads with the same
parameter types. A host that lists the members of its types in another order, or some of them
repeatedly, gives the same answer. -/
theorem resolve_decides (model : SemanticModel) (numbered : model.Numbered) (bound : MethodId)
    (position : Nat) (signal : Signal)
    (unraised : (model.resolve bound position signal).2.raised = false) :
    ((model.resolve bound position signal).1 = some .unresolved ↔
      ¬ ∃ method type, model.Knows bound method type) ∧
    (∀ method type, model.Knows bound method type →
      ((model.resolve bound position signal).1 = some .ambiguous ↔
        ∃ id other, model.Overload bound method id other ∧ model.Fits position method other) ∧
      ((model.resolve bound position signal).1 = some .unambiguous ↔
        ¬ ∃ id other, model.Overload bound method id other ∧
          model.Fits position method other) ∧
      (method.arity ≤ position →
        ((model.resolve bound position signal).1 = some .ambiguous ↔
          ∃ id ∈ type.members, id ≠ bound ∧ ∃ other, model.method? id = some other ∧
            other.name = method.name ∧
            other.parameters.map (·.type) = method.parameters.map (·.type)))) ∧
    ∀ other signalToo, model.Rearranges other →
      (other.resolve bound position signalToo).2.raised = false →
      (other.resolve bound position signalToo).1 = (model.resolve bound position signal).1 := by
  have answer := resolve_of_unraised unraised
  refine ⟨?_, ?_, ?_⟩
  · rw [answer, Option.some.injEq]
    exact verdict_eq_unresolved_iff
  · intro method type knows
    have ambiguous : (model.resolve bound position signal).1 = some .ambiguous ↔
        ∃ id other, model.Overload bound method id other ∧ model.Fits position method other := by
      rw [answer, Option.some.injEq, verdict_eq_ambiguous_iff knows, any_accepts_iff numbered]
    refine ⟨ambiguous, ?_, fun beyond => ?_⟩
    · rw [answer, verdict_of_knows knows, ← any_accepts_iff numbered]
      simp
    · rw [ambiguous]
      constructor
      · rintro ⟨id, other, overload, fits⟩
        obtain ⟨owner, known, member⟩ := overload.member
        rw [knows.owned] at known
        cases known
        exact ⟨id, member, overload.distinct, other, overload.declared, overload.name,
          (fits_beyond_iff beyond overload.arity).mp fits⟩
      · rintro ⟨id, member, distinct, other, declared, name, types⟩
        have arity : other.arity = method.arity := by
          have lengths := congrArg List.length types
          rw [List.length_map, List.length_map] at lengths
          exact lengths
        exact ⟨id, other, ⟨⟨type, knows.owned, member⟩, distinct, declared, name, arity⟩,
          (fits_beyond_iff beyond arity).mpr types⟩
  · intro other signalToo rearranges unraisedToo
    rw [answer, resolve_of_unraised unraisedToo, rearranges.verdict_eq]

/-- A method with one parameter. -/
def runWith (type : TypeId) : MethodSymbol :=
  ⟨"Run", ⟨0⟩, SymbolTable.numbered 0 [("job", type)]⟩

/-- A type that lists one overload twice, beside a method of another type and one that is not
known. -/
def untidy : SemanticModel :=
  BoundSymbols.model ⟨⟨
    [⟨"Host", .classType, [⟨1⟩, ⟨9⟩, ⟨0⟩, ⟨2⟩, ⟨1⟩]⟩, ⟨"Func<int>", .delegate, []⟩,
      ⟨"Action", .delegate, []⟩],
    [runWith ⟨1⟩, runWith ⟨2⟩, ⟨"Stop", ⟨1⟩, []⟩], []⟩, []⟩

theorem resolve_decides_untidy : untidy.Numbered ∧
    (untidy.resolve ⟨0⟩ 0 .quiet).2.raised = false ∧
    ∃ id other, untidy.Overload ⟨0⟩ (runWith ⟨1⟩) id other ∧ untidy.Fits 0 (runWith ⟨1⟩) other := by
  have numbered : untidy.Numbered := by
    intro id method declared index parameter found
    have listed : method ∈ [runWith ⟨1⟩, runWith ⟨2⟩, ⟨"Stop", ⟨1⟩, []⟩] :=
      List.mem_of_getElem? declared
    simp only [List.mem_cons, List.not_mem_nil, or_false] at listed
    rcases listed with rfl | rfl | rfl
    · exact (SymbolTable.ordinal_of_numbered found).trans (Nat.zero_add index)
    · exact (SymbolTable.ordinal_of_numbered found).trans (Nat.zero_add index)
    · exact nomatch found
  have unraised : (untidy.resolve ⟨0⟩ 0 .quiet).2.raised = false := by decide
  have ambiguous : (untidy.resolve ⟨0⟩ 0 .quiet).1 = some .ambiguous := by decide
  have decided := (resolve_decides untidy numbered ⟨0⟩ 0 .quiet unraised).2.1
  exact ⟨numbered, unraised, (decided (runWith ⟨1⟩) _ ⟨rfl, rfl⟩).1.mp ambiguous⟩

end TreeLint.SemanticModel
