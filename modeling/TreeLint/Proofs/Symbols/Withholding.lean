import TreeLint.Proofs.Symbols.Overloads

/-!
# When a verdict is withheld

A signal never changes the verdict on a call. It withholds the verdict exactly if it is found raised
when another overload is about to be tested and none has been accepted before
(`TreeLint.SemanticModel.resolve_withheld_iff`). The host may have raised it from the start, by one
of the queries on the way, or on its own before any of the looks.
-/

namespace TreeLint.SemanticModel

variable (model : SemanticModel) (method : MethodSymbol) (position : Nat)

/-- The signal when the first candidate is reached: the host has been asked twice for the type of
the bound method, whether it is known and for its members. -/
def onArrival (signal : Signal) : Signal :=
  model.afterQuery method.containingType (model.afterQuery method.containingType signal)

/-- The signal after a candidate has been tested. -/
def afterTest (signal : Signal) (candidate : MethodSymbol) : Signal :=
  (model.fits position signal.look (candidate.parameters.zip method.parameters)).2

/-- The signal is found raised when some candidate is about to be tested, and no candidate that was
tested before takes the changed call. -/
def Interrupts (signal : Signal) (candidates : List MethodSymbol) : Prop :=
  ∃ tested candidate rest, candidates = tested ++ candidate :: rest ∧
    (∀ other ∈ tested, model.accepts position method other = false) ∧
    (tested.foldl (model.afterTest method position) signal).look.raised = true

variable {model method position} {signal : Signal}

theorem not_interrupts_nil : ¬ model.Interrupts method position signal [] := by
  rintro ⟨tested, candidate, rest, split, -⟩
  simp at split

theorem interrupts_cons_iff {candidate : MethodSymbol} {candidates : List MethodSymbol} :
    model.Interrupts method position signal (candidate :: candidates) ↔
      signal.look.raised = true ∨ model.accepts position method candidate = false ∧
        model.Interrupts method position (model.afterTest method position signal candidate)
          candidates := by
  constructor
  · rintro ⟨tested, next, rest, split, rejected, raised⟩
    cases tested with
    | nil => exact .inl raised
    | cons first tested =>
        obtain ⟨rfl, below⟩ := List.cons.inj split
        obtain ⟨here, rejected⟩ := List.forall_mem_cons.mp rejected
        exact .inr ⟨here, tested, next, rest, below, rejected, raised⟩
  · rintro (raised | ⟨here, tested, next, rest, rfl, rejected, raised⟩)
    · exact ⟨[], candidate, candidates, rfl, by simp, raised⟩
    · exact ⟨candidate :: tested, next, rest, rfl, List.forall_mem_cons.mpr ⟨here, rejected⟩,
        raised⟩

/-- A signal that was raised before interrupts the tests as soon as there is one to make. -/
theorem interrupts_iff_of_raised (raised : signal.raised = true) (candidates : List MethodSymbol) :
    model.Interrupts method position signal candidates ↔ ∃ candidate, candidate ∈ candidates := by
  cases candidates with
  | nil => simp [not_interrupts_nil]
  | cons candidate candidates =>
      rw [interrupts_cons_iff]
      exact iff_of_true (.inl (signal.before_look raised)) ⟨candidate, List.mem_cons_self⟩

theorem tryCandidates_eq_none_iff (candidates : List MethodSymbol) :
    (model.tryCandidates method position signal candidates).1 = none ↔
      model.Interrupts method position signal candidates := by
  induction candidates generalizing signal with
  | nil => simp [tryCandidates, not_interrupts_nil]
  | cons candidate candidates ih =>
      rw [interrupts_cons_iff, tryCandidates]
      cases raised : signal.look.raised with
      | true => simp
      | false =>
          have accepted := (model.fits_eq position signal.look
            (candidate.parameters.zip method.parameters)).1
          change _ = model.accepts position method candidate at accepted
          simp only [Bool.false_eq_true, ↓reduceIte, accepted, false_or]
          cases model.accepts position method candidate with
          | true => simp
          | false =>
              simp only [Bool.false_eq_true, ↓reduceIte, true_and]
              exact ih

theorem resolve_eq_none_iff {bound : MethodId} :
    (model.resolve bound position signal).1 = none ↔ ∃ method type,
      model.Knows bound method type ∧ model.Interrupts method position
        (model.onArrival method signal) (model.candidates bound method) := by
  constructor
  · intro withheld
    unfold resolve at withheld
    split at withheld
    · cases withheld
    · next method declared =>
        split at withheld
        · cases withheld
        · next type owned =>
            exact ⟨method, type, ⟨declared, owned⟩, (tryCandidates_eq_none_iff _).mp withheld⟩
  · rintro ⟨method, type, knows, interrupts⟩
    simp only [resolve, knows.declared, knows.owned]
    exact (tryCandidates_eq_none_iff _).mpr interrupts

theorem before_onArrival (signal : Signal) : signal.Before (model.onArrival method signal) :=
  (model.before_afterQuery _ signal).trans (model.before_afterQuery _ _)

/-- **When a verdict is withheld.** For any host, any bound method and position, and any signal, a
resolution gives the verdict that the same symbols give when nobody ever raises the signal, or none.
It gives none exactly if the method and its type are known and the signal is found raised when one
of the other overloads is about to be tested, none of those before it having been accepted. When the
signal was raised from the start, this is so exactly if there is another overload at all. -/
theorem resolve_withheld_iff (model : SemanticModel) (bound : MethodId) (position : Nat)
    (signal : Signal) :
    (∃ verdict, (model.silent.resolve bound position .quiet).1 = some verdict ∧
      ((model.resolve bound position signal).1 = none ∨
        (model.resolve bound position signal).1 = some verdict)) ∧
    ((model.resolve bound position signal).1 = none ↔ ∃ method type,
      model.Knows bound method type ∧ model.Interrupts method position
        (model.onArrival method signal) (model.candidates bound method)) ∧
    (signal.raised = true →
      ((model.resolve bound position signal).1 = none ↔ ∃ method type,
        model.Knows bound method type ∧ ∃ id other, model.Overload bound method id other)) := by
  refine ⟨⟨model.verdict bound position, ?_, ?_⟩, resolve_eq_none_iff, fun raised => ?_⟩
  · rw [resolve_silent]
  · rcases (model.resolve_withholds bound position signal).answered with answer | ⟨withheld, -⟩
    · exact .inr answer
    · exact .inl withheld
  · rw [resolve_eq_none_iff]
    refine exists_congr fun method => exists_congr fun type => and_congr_right fun knows => ?_
    rw [interrupts_iff_of_raised (before_onArrival signal raised)]
    simp only [mem_candidates_iff]
    exact exists_comm

end TreeLint.SemanticModel
