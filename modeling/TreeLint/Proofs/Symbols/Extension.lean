import TreeLint.Proofs.Symbols.Growth

/-!
# Hosts that know more

A host extends another one when it gives the same methods and the same kinds of types wherever the
other one knows them, and lists at least the same members (`TreeLint.SemanticModel.Extends`). A call
that is ambiguous stays so, and one that is unambiguous does not become unresolved
(`TreeLint.SemanticModel.Extends.verdict_of_ambiguous`,
`TreeLint.SemanticModel.Extends.verdict_of_unambiguous`). A table of symbols that has grown extends
the earlier one (`TreeLint.BoundSymbols.extends_of_grows`).
-/

namespace TreeLint

namespace SemanticModel

variable {model other : SemanticModel} {bound : MethodId} {position : Nat}

/-- The symbols of a bound method and of the type on which it is declared are known. -/
structure Knows (model : SemanticModel) (bound : MethodId) (method : MethodSymbol)
    (type : TypeSymbol) : Prop where
  declared : model.method? bound = some method
  owned : model.type? method.containingType = some type

theorem verdict_of_knows {method : MethodSymbol} {type : TypeSymbol}
    (knows : model.Knows bound method type) : model.verdict bound position =
      if (model.candidates bound method).any (model.accepts position method) then .ambiguous
      else .unambiguous := by
  simp only [verdict, knows.declared, knows.owned]

theorem verdict_eq_unresolved_iff : model.verdict bound position = .unresolved ↔
    ¬ ∃ method type, model.Knows bound method type := by
  constructor
  · rintro unresolved ⟨method, type, knows⟩
    rw [verdict_of_knows knows] at unresolved
    split at unresolved <;> cases unresolved
  · intro unknown
    unfold verdict
    split
    · rfl
    · next method declared =>
        split
        · rfl
        · next type owned => exact absurd ⟨method, type, declared, owned⟩ unknown

theorem exists_knows (resolved : model.verdict bound position ≠ .unresolved) :
    ∃ method type, model.Knows bound method type := by
  by_contra unknown
  exact resolved (verdict_eq_unresolved_iff.mpr unknown)

theorem verdict_eq_ambiguous_iff {method : MethodSymbol} {type : TypeSymbol}
    (knows : model.Knows bound method type) : model.verdict bound position = .ambiguous ↔
      (model.candidates bound method).any (model.accepts position method) = true := by
  rw [verdict_of_knows knows]
  simp

/-- Another host gives the same methods and the same kinds of types, if not more of them, and lists
at least the same members of each type. -/
structure Extends (model other : SemanticModel) : Prop where
  methods : ∀ id method, model.method? id = some method → other.method? id = some method
  types : ∀ id type, model.type? id = some type → ∃ wider, other.type? id = some wider ∧
    wider.kind = type.kind ∧ type.members ⊆ wider.members

namespace Extends

variable (wider : model.Extends other)

include wider

theorem knows {method : MethodSymbol} {type : TypeSymbol} (knows : model.Knows bound method type) :
    ∃ type, other.Knows bound method type := by
  obtain ⟨type, owned, -⟩ := wider.types _ _ knows.owned
  exact ⟨type, wider.methods _ _ knows.declared, owned⟩

theorem isDelegate {type : TypeId} (delegate : model.isDelegate type = true) :
    other.isDelegate type = true := by
  unfold SemanticModel.isDelegate at delegate ⊢
  rw [Option.any_eq_true] at delegate ⊢
  obtain ⟨symbol, known, delegate⟩ := delegate
  obtain ⟨symbolToo, knownToo, kind, -⟩ := wider.types type symbol known
  refine ⟨symbolToo, knownToo, ?_⟩
  rw [TypeSymbol.isDelegate, kind]
  exact delegate

theorem accepts {method candidate : MethodSymbol}
    (accepted : model.accepts position method candidate = true) :
    other.accepts position method candidate = true := by
  apply List.all_eq_true.mpr
  intro pair member
  have taken := List.all_eq_true.mp accepted pair member
  unfold takes at taken ⊢
  split at taken
  · next here =>
      rw [if_pos here]
      exact wider.isDelegate taken
  · next apart =>
      rw [if_neg apart]
      exact taken

theorem overload {method candidate : MethodSymbol} {id : MethodId}
    (overload : model.Overload bound method id candidate) :
    other.Overload bound method id candidate where
  member := by
    obtain ⟨type, owned, member⟩ := overload.member
    obtain ⟨typeToo, ownedToo, -, members⟩ := wider.types _ type owned
    exact ⟨typeToo, ownedToo, members member⟩
  distinct := overload.distinct
  declared := wider.methods id candidate overload.declared
  name := overload.name
  arity := overload.arity

/-- An overload that takes the changed call takes it still. -/
theorem verdict_of_ambiguous (ambiguous : model.verdict bound position = .ambiguous) :
    other.verdict bound position = .ambiguous := by
  obtain ⟨method, type, knows⟩ := exists_knows (by rw [ambiguous]; exact Verdict.noConfusion)
  obtain ⟨typeToo, knowsToo⟩ := wider.knows knows
  rw [verdict_eq_ambiguous_iff knows, List.any_eq_true] at ambiguous
  obtain ⟨candidate, listed, accepted⟩ := ambiguous
  obtain ⟨id, overload⟩ := mem_candidates_iff.mp listed
  apply (verdict_eq_ambiguous_iff knowsToo).mpr
  apply List.any_eq_true.mpr
  exact ⟨candidate, mem_candidates_iff.mpr ⟨id, wider.overload overload⟩, wider.accepts accepted⟩

/-- What is known of a call is known still. -/
theorem verdict_of_unambiguous (unambiguous : model.verdict bound position = .unambiguous) :
    other.verdict bound position = .unambiguous ∨ other.verdict bound position = .ambiguous := by
  obtain ⟨method, type, knows⟩ := exists_knows (by rw [unambiguous]; exact Verdict.noConfusion)
  obtain ⟨typeToo, knowsToo⟩ := wider.knows knows
  rw [verdict_of_knows knowsToo]
  split
  · exact .inr rfl
  · exact .inl rfl

omit wider in
/-- Hosts that extend each other decide alike. -/
theorem verdict_eq (there : model.Extends other) (back : other.Extends model) (bound : MethodId)
    (position : Nat) : other.verdict bound position = model.verdict bound position := by
  cases verdict : model.verdict bound position with
  | ambiguous => exact there.verdict_of_ambiguous verdict
  | unambiguous =>
      rcases there.verdict_of_unambiguous verdict with same | ambiguous
      · exact same
      · rw [back.verdict_of_ambiguous ambiguous] at verdict
        cases verdict
  | unresolved =>
      rw [verdict_eq_unresolved_iff] at verdict ⊢
      rintro ⟨method, type, knows⟩
      exact verdict ⟨method, back.knows knows⟩

end Extends

end SemanticModel

/-! ### Tables that grow -/

/-- A table of symbols that has grown extends the earlier one. -/
theorem BoundSymbols.extends_of_grows {earlier later : BoundSymbols}
    (grows : earlier.symbols.Grows later.symbols) : earlier.model.Extends later.model where
  methods := grows.methods
  types := by
    intro id type found
    obtain ⟨grown, there, -, kind, members⟩ := grows.types id type found
    exact ⟨grown, there, kind, members.subset⟩

end TreeLint
