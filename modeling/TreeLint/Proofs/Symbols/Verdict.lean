import TreeLint.Proofs.Pass.Progress
import TreeLint.Symbols.Overload

/-!
# Verdicts

The verdict on an argument does not depend on the signal (`TreeLint.SemanticModel.verdict`). With
any host and any signal a resolution gives this verdict or, once the signal is raised, none
(`TreeLint.SemanticModel.resolve_withholds`); with a host that never raises and a quiet signal it
gives the verdict (`TreeLint.SemanticModel.resolve_silent`). When the positions of all parameters
are their indexes, the verdict is the one that is written down for overloads: no other overload
fits (`TreeLint.SemanticModel.verdict_eq_unambiguous_iff`).
-/

namespace TreeLint

variable {α : Type}

/-- A query that starts with a signal ends with the answer or, once the signal is raised, with
none. -/
structure Withholds (answer : α) (signal : Signal) (result : Option α × Signal) : Prop where
  before : signal.Before result.2
  answered : result.1 = some answer ∨ result.1 = none ∧ result.2.raised = true

theorem Withholds.of_answer {answer : α} {signal after : Signal} (before : signal.Before after) :
    Withholds answer signal (some answer, after) :=
  ⟨before, .inl rfl⟩

/-- A query may begin with a signal that was raised in the meantime. -/
theorem Withholds.of_before {answer : α} {earlier later : Signal} {result : Option α × Signal}
    (before : earlier.Before later) (withholds : Withholds answer later result) :
    Withholds answer earlier result :=
  ⟨before.trans withholds.before, withholds.answered⟩

namespace SemanticModel

variable (model : SemanticModel)

/-- The same answers from a host that never raises the signal. -/
def silent : SemanticModel :=
  { model with raises := fun _ => false }

/-- Whether values of a type can be called. -/
def isDelegate (type : TypeId) : Bool :=
  (model.type? type).any (·.isDelegate)

/-- Whether a candidate's parameter, paired with that of the bound method, takes the changed
call. -/
def takes (position : Nat) (pair : ParameterSymbol × ParameterSymbol) : Bool :=
  if pair.1.ordinal = position then model.isDelegate pair.1.type else pair.1.type = pair.2.type

/-- Whether a candidate takes the changed call. -/
def accepts (position : Nat) (method candidate : MethodSymbol) : Bool :=
  (candidate.parameters.zip method.parameters).all (model.takes position)

/-- The verdict on the argument at `position` of a call bound to a method. -/
def verdict (bound : MethodId) (position : Nat) : Verdict :=
  match model.method? bound with
  | none => .unresolved
  | some method =>
      match model.type? method.containingType with
      | none => .unresolved
      | some _ =>
          if (model.candidates bound method).any (model.accepts position method) then .ambiguous
          else .unambiguous

theorem verdict_eq_of_symbols {model other : SemanticModel}
    (methods : other.method? = model.method?) (types : other.type? = model.type?) :
    other.verdict = model.verdict := by
  obtain ⟨bound, method, type, raises⟩ := model
  obtain ⟨boundToo, methodToo, typeToo, raisesToo⟩ := other
  cases methods
  cases types
  rfl

theorem before_afterQuery (id : TypeId) (signal : Signal) :
    signal.Before (model.afterQuery id signal) := by
  unfold afterQuery
  cases model.raises id with
  | false => exact .refl signal
  | true => exact signal.before_raise

/-- Queries raise the signal at most; the answer comes from the model alone. -/
theorem fits_eq (position : Nat) (signal : Signal)
    (pairs : List (ParameterSymbol × ParameterSymbol)) :
    (model.fits position signal pairs).1 = pairs.all (model.takes position) ∧
      signal.Before (model.fits position signal pairs).2 := by
  induction pairs generalizing signal with
  | nil => exact ⟨rfl, .refl signal⟩
  | cons pair pairs ih =>
      obtain ⟨theirs, ours⟩ := pair
      rw [List.all_cons, fits]
      by_cases here : theirs.ordinal = position
      · have query := model.before_afterQuery theirs.type signal
        cases delegate : (model.type? theirs.type).any (·.isDelegate) with
        | true =>
            simp only [takes, isDelegate, here, delegate, ↓reduceIte, Bool.true_and]
            exact ⟨(ih _).1, query.trans (ih _).2⟩
        | false =>
            simp only [takes, isDelegate, here, delegate, ↓reduceIte, Bool.false_and,
              Bool.false_eq_true]
            exact ⟨trivial, query⟩
      · by_cases same : theirs.type = ours.type
        · simp only [takes, here, same, ↓reduceIte, decide_true, Bool.true_and]
          exact ih signal
        · simp only [takes, here, same, ↓reduceIte, decide_false, Bool.false_and]
          exact ⟨trivial, .refl signal⟩

/-- Trying the candidates finds one that accepts, finds that there is none, or is stopped. -/
theorem tryCandidates_withholds (method : MethodSymbol) (position : Nat) (signal : Signal)
    (candidates : List MethodSymbol) :
    Withholds (if candidates.any (model.accepts position method) then .ambiguous else .unambiguous)
      signal (model.tryCandidates method position signal candidates) := by
  induction candidates generalizing signal with
  | nil => exact .of_answer (.refl signal)
  | cons candidate candidates ih =>
      refine .of_before signal.before_look ?_
      rw [tryCandidates, List.any_cons]
      cases raised : signal.look.raised with
      | true => exact ⟨.refl _, .inr ⟨rfl, raised⟩⟩
      | false =>
          obtain ⟨accepted, before⟩ :=
            model.fits_eq position signal.look (candidate.parameters.zip method.parameters)
          refine .of_before before ?_
          change _ = model.accepts position method candidate at accepted
          simp only [Bool.false_eq_true, ↓reduceIte, accepted]
          cases model.accepts position method candidate with
          | true => exact .of_answer (.refl _)
          | false => exact ih _

/-- A resolution gives the verdict unless the signal stops it. -/
theorem resolve_withholds (bound : MethodId) (position : Nat) (signal : Signal) :
    Withholds (model.verdict bound position) signal (model.resolve bound position signal) := by
  unfold resolve verdict
  cases model.method? bound with
  | none => exact .of_answer (.refl signal)
  | some method =>
      have query := model.before_afterQuery method.containingType
      dsimp only
      refine .of_before (query signal) ?_
      cases model.type? method.containingType with
      | none => exact .of_answer (.refl _)
      | some type =>
          exact .of_before (query _) (model.tryCandidates_withholds method position _ _)

/-- With a host that never raises it, a quiet signal stays quiet. -/
theorem fits_silent (position : Nat) (pairs : List (ParameterSymbol × ParameterSymbol)) :
    (model.silent.fits position .quiet pairs).2 = .quiet := by
  induction pairs with
  | nil => rfl
  | cons pair pairs ih =>
      obtain ⟨theirs, ours⟩ := pair
      rw [fits]
      split
      · change (if _ then model.silent.fits position .quiet pairs else (false, .quiet)).2 = .quiet
        split
        · exact ih
        · rfl
      · split
        · exact ih
        · rfl

theorem tryCandidates_silent (method : MethodSymbol) (position : Nat)
    (candidates : List MethodSymbol) :
    (model.silent.tryCandidates method position .quiet candidates).2 = .quiet := by
  induction candidates with
  | nil => rfl
  | cons candidate candidates ih =>
      have kept := model.fits_silent position (candidate.parameters.zip method.parameters)
      change (if (model.silent.fits position .quiet _).1 then
        (_, (model.silent.fits position .quiet _).2) else
          model.silent.tryCandidates method position
            (model.silent.fits position .quiet _).2 candidates).2 = .quiet
      rw [kept]
      split
      · rfl
      · exact ih

/-- With a host that never raises the signal, a resolution gives the verdict. -/
theorem resolve_silent (bound : MethodId) (position : Nat) :
    model.silent.resolve bound position .quiet = (some (model.verdict bound position), .quiet) := by
  have quiet : (model.silent.resolve bound position .quiet).2 = .quiet := by
    unfold resolve
    split
    · rfl
    · change (match model.type? _ with
        | none => (some Verdict.unresolved, Signal.quiet)
        | some _ => model.silent.tryCandidates _ position .quiet _).2 = .quiet
      split
      · rfl
      · exact model.tryCandidates_silent _ position _
  obtain answer | ⟨_, raised⟩ := (model.silent.resolve_withholds bound position .quiet).answered
  · exact Prod.ext answer quiet
  · rw [quiet] at raised
    exact absurd raised Bool.false_ne_true

/-! ### Overloads -/

/-- The positions of all parameters are their indexes. -/
def Numbered : Prop :=
  ∀ id method, model.method? id = some method → ∀ (index : Nat) (parameter : ParameterSymbol),
    method.parameters[index]? = some parameter → parameter.ordinal = index

/-- Another member of the type of a bound method with its name and its number of parameters. -/
structure Overload (bound : MethodId) (method : MethodSymbol) (id : MethodId)
    (other : MethodSymbol) : Prop where
  member : ∃ type, model.type? method.containingType = some type ∧ id ∈ type.members
  distinct : id ≠ bound
  declared : model.method? id = some other
  name : other.name = method.name
  arity : other.arity = method.arity

/-- A method takes a delegate at an index, if it has a parameter there, and has the parameter types
of the bound method at all other indexes. -/
structure Fits (index : Nat) (method other : MethodSymbol) : Prop where
  delegate : ∀ theirs, other.parameters[index]? = some theirs →
    model.isDelegate theirs.type = true
  elsewhere : ∀ (place : Nat) (theirs ours : ParameterSymbol), place ≠ index →
    other.parameters[place]? = some theirs → method.parameters[place]? = some ours →
      theirs.type = ours.type

variable {model}

theorem mem_candidates_iff {bound : MethodId} {method other : MethodSymbol} :
    other ∈ model.candidates bound method ↔ ∃ id, model.Overload bound method id other := by
  simp only [candidates, List.mem_filter, List.mem_filterMap, decide_eq_true_eq]
  constructor
  · rintro ⟨⟨id, ⟨named, distinct⟩, declared⟩, arity⟩
    unfold membersNamed at named
    split at named
    · exact absurd named List.not_mem_nil
    · next type known =>
        obtain ⟨member, name⟩ := List.mem_filter.mp named
        rw [declared, Option.any_some] at name
        exact ⟨id, ⟨type, known, member⟩, distinct, declared, of_decide_eq_true name, arity⟩
  · rintro ⟨id, ⟨type, known, member⟩, distinct, declared, name, arity⟩
    refine ⟨⟨id, ⟨?_, distinct⟩, declared⟩, arity⟩
    rw [membersNamed, known]
    refine List.mem_filter.mpr ⟨member, ?_⟩
    rw [declared, Option.any_some]
    exact decide_eq_true name

theorem takes_iff {position index : Nat} {theirs ours : ParameterSymbol}
    (ordinal : theirs.ordinal = index) : model.takes position (theirs, ours) = true ↔
      (index = position → model.isDelegate theirs.type = true) ∧
        (index ≠ position → theirs.type = ours.type) := by
  unfold takes
  rw [ordinal]
  by_cases here : index = position
  · simp only [here, ↓reduceIte, true_implies, ne_eq, not_true_eq_false, false_implies, and_true]
  · simp only [here, ↓reduceIte, false_implies, ne_eq, not_false_eq_true, true_implies, true_and,
      decide_eq_true_eq]

theorem accepts_iff (numbered : model.Numbered) {position : Nat} {method other : MethodSymbol}
    {id : MethodId} (declared : model.method? id = some other)
    (arity : other.arity = method.arity) :
    model.accepts position method other = true ↔ model.Fits position method other := by
  have pointwise : model.accepts position method other = true ↔
      ∀ (index : Nat) (theirs ours : ParameterSymbol), other.parameters[index]? = some theirs →
        method.parameters[index]? = some ours →
          (index = position → model.isDelegate theirs.type = true) ∧
            (index ≠ position → theirs.type = ours.type) := by
    rw [accepts, List.all_eq_true]
    constructor
    · intro accepted index theirs ours found beside
      have paired := (List.getElem?_zip_eq_some (z := (theirs, ours))).mpr ⟨found, beside⟩
      exact (takes_iff (numbered id other declared index theirs found)).mp
        (accepted (theirs, ours) (List.mem_of_getElem? paired))
    · rintro fits ⟨theirs, ours⟩ member
      obtain ⟨index, paired⟩ := List.mem_iff_getElem?.mp member
      obtain ⟨found, beside⟩ := List.getElem?_zip_eq_some.mp paired
      exact (takes_iff (numbered id other declared index theirs found)).mpr
        (fits index theirs ours found beside)
  rw [pointwise]
  constructor
  · intro fits
    refine ⟨fun theirs found => ?_, fun place theirs ours apart found beside =>
      (fits place theirs ours found beside).2 apart⟩
    -- The bound method has as many parameters, and so one at the same index.
    obtain ⟨within, -⟩ := List.getElem?_eq_some_iff.mp found
    have beside := List.getElem?_eq_getElem (Nat.lt_of_lt_of_eq within arity)
    exact (fits position theirs _ found beside).1 rfl
  · rintro fits index theirs ours found beside
    refine ⟨fun here => ?_, fun apart => fits.elsewhere index theirs ours apart found beside⟩
    rw [here] at found
    exact fits.delegate theirs found

/-- Some candidate takes the changed call exactly if some other overload fits. -/
theorem any_accepts_iff (numbered : model.Numbered) {bound : MethodId} {method : MethodSymbol}
    {position : Nat} : (model.candidates bound method).any (model.accepts position method) = true ↔
      ∃ id other, model.Overload bound method id other ∧ model.Fits position method other := by
  rw [List.any_eq_true]
  constructor
  · rintro ⟨other, member, accepted⟩
    obtain ⟨id, overload⟩ := mem_candidates_iff.mp member
    exact ⟨id, other, overload,
      (accepts_iff numbered overload.declared overload.arity).mp accepted⟩
  · rintro ⟨id, other, overload, fits⟩
    exact ⟨other, mem_candidates_iff.mpr ⟨id, overload⟩,
      (accepts_iff numbered overload.declared overload.arity).mpr fits⟩

/-- A resolution comes out unambiguous exactly when the method and its type are known and no other
overload fits. -/
theorem verdict_eq_unambiguous_iff (numbered : model.Numbered) {bound : MethodId}
    {position : Nat} : model.verdict bound position = .unambiguous ↔
      ∃ method, model.method? bound = some method ∧
        (∃ type, model.type? method.containingType = some type) ∧
        ∀ id other, model.Overload bound method id other → ¬ model.Fits position method other := by
  unfold verdict
  cases model.method? bound with
  | none => exact ⟨Verdict.noConfusion, fun ⟨method, known, _⟩ => nomatch known⟩
  | some method =>
      have rejected : (model.candidates bound method).any (model.accepts position method) = false ↔
          ∀ id other, model.Overload bound method id other →
            ¬ model.Fits position method other := by
        rw [Bool.eq_false_iff, ne_eq, any_accepts_iff numbered]
        simp only [not_exists, not_and]
      simp only [Option.some.injEq, exists_eq_left', ← rejected]
      cases model.type? method.containingType with
      | none => exact ⟨Verdict.noConfusion, fun ⟨⟨type, known⟩, _⟩ => nomatch known⟩
      | some type =>
          cases (model.candidates bound method).any (model.accepts position method) with
          | true => exact ⟨Verdict.noConfusion, fun ⟨_, rejects⟩ => Bool.noConfusion rejects⟩
          | false => exact ⟨fun _ => ⟨⟨type, rfl⟩, rfl⟩, fun _ => rfl⟩

end SemanticModel

end TreeLint
