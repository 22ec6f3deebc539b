import TreeLint.Rule.Registry

/-!
# How registries come about

A host fills a registry step by step. The checkers of a kind are those that the steps have added
for this kind, one after the other and each as often as it was added
(`TreeLint.Registry.checkersFor_ofSteps`). A registry can also be read as one list of registrations
(`TreeLint.Registry.checkersFor_eq`).
-/

namespace TreeLint

/-- A checker registered for a kind. -/
structure Registration where
  kind : Kind
  checker : Checker

/-- What a host does to a registry. -/
inductive RegistryStep where
  | register (kind : Kind) (checker : Checker)
  | registerChecker (checker : Checker)

namespace RegistryStep

/-- The checker that a step registers. -/
def checker : RegistryStep → Checker
  | .register _ checker => checker
  | .registerChecker checker => checker

/-- The checkers that a step adds for a kind: a checker that declares the kind more than once is
added as often. -/
def added (kind : Kind) : RegistryStep → List Checker
  | .register other checker => if other = kind then [checker] else []
  | .registerChecker checker => List.replicate (checker.kinds.count kind) checker

/-- What a step registers, in order. -/
def registrations : RegistryStep → List Registration
  | .register kind checker => [⟨kind, checker⟩]
  | .registerChecker checker => checker.kinds.map (⟨·, checker⟩)

theorem added_eq (step : RegistryStep) (kind : Kind) :
    step.added kind = (step.registrations.filter (·.kind = kind)).map (·.checker) := by
  cases step with
  | register other checker =>
      rw [added, registrations, List.filter_cons]
      by_cases same : other = kind
      · rw [if_pos same, if_pos (decide_eq_true same)]
        rfl
      · rw [if_neg same, if_neg (same ∘ of_decide_eq_true)]
        rfl
  | registerChecker checker =>
      rw [added, registrations, List.filter_map, List.map_map, List.count_eq_length_filter]
      exact (List.map_const ..).symm

theorem eq_of_mem_added {step : RegistryStep} {kind : Kind} {found : Checker}
    (member : found ∈ step.added kind) : found = step.checker := by
  cases step with
  | register other checker =>
      rw [added] at member
      split at member
      · exact List.mem_singleton.mp member
      · exact absurd member List.not_mem_nil
  | registerChecker checker => exact List.eq_of_mem_replicate member

end RegistryStep

/-- What the steps of a history register, in order. -/
def Registration.ofSteps (steps : List RegistryStep) : List Registration :=
  steps.flatMap (·.registrations)

theorem Registration.exists_step {steps : List RegistryStep} {registration : Registration}
    (member : registration ∈ ofSteps steps) :
    ∃ step ∈ steps, registration.checker = step.checker := by
  obtain ⟨step, listed, made⟩ := List.mem_flatMap.mp member
  refine ⟨step, listed, ?_⟩
  cases step with
  | register kind checker =>
      cases List.mem_singleton.mp made
      rfl
  | registerChecker checker =>
      obtain ⟨kind, -, rfl⟩ := List.mem_map.mp made
      rfl

theorem flatMap_added (steps : List RegistryStep) (kind : Kind) : steps.flatMap (·.added kind) =
    ((Registration.ofSteps steps).filter (·.kind = kind)).map (·.checker) := by
  rw [Registration.ofSteps, List.filter_flatMap, List.map_flatMap]
  simp only [RegistryStep.added_eq]

namespace Registry

/-- What has been registered, kind by kind. -/
def registrations (registry : Registry) : List Registration :=
  registry.checkers.flatMap fun entry => entry.2.map (⟨entry.1, ·⟩)

theorem getD_lookup_eq {entries : List (Kind × List Checker)}
    (distinct : (entries.map (·.1)).Nodup) (kind : Kind) :
    (entries.lookup kind).getD [] =
      ((entries.flatMap fun entry => entry.2.map (Registration.mk entry.1)).filter
        (·.kind = kind)).map (·.checker) := by
  induction entries with
  | nil => rfl
  | cons entry entries ih =>
      obtain ⟨fresh, distinct⟩ := List.nodup_cons.mp distinct
      rw [List.flatMap_cons, List.filter_append, List.map_append, ← ih distinct, List.filter_map,
        List.map_map, Dict.lookup_entry]
      by_cases same : kind = entry.1
      · -- All checkers of the kind are those of this entry.
        have absent : entries.lookup kind = none := by
          refine List.lookup_eq_none_iff.mpr fun other member => ?_
          rw [same, bne_iff_ne]
          exact fun equal => fresh (List.mem_map.mpr ⟨other, member, equal.symm⟩)
        have whole : entry.2.filter ((fun registration : Registration =>
            decide (registration.kind = kind)) ∘ Registration.mk entry.1) = entry.2 :=
          List.filter_eq_self.mpr fun _ _ => decide_eq_true same.symm
        rw [if_pos same, absent, whole]
        exact ((List.append_nil _).trans (List.map_id _)).symm
      · have nothing : entry.2.filter ((fun registration : Registration =>
            decide (registration.kind = kind)) ∘ Registration.mk entry.1) = [] :=
          List.filter_eq_nil_iff.mpr fun _ _ equal => same (of_decide_eq_true equal).symm
        rw [if_neg same, nothing]
        rfl

/-- The checkers of a kind are those of its registrations. -/
theorem checkersFor_eq (registry : Registry) (kind : Kind) : registry.checkersFor kind =
    (registry.registrations.filter (·.kind = kind)).map (·.checker) :=
  getD_lookup_eq registry.distinct kind

theorem exists_registration {registry : Registry} {kind : Kind} {checker : Checker}
    (member : checker ∈ registry.checkersFor kind) :
    ∃ registration ∈ registry.registrations, registration.checker = checker := by
  rw [checkersFor_eq] at member
  obtain ⟨registration, listed, same⟩ := List.mem_map.mp member
  exact ⟨registration, (List.mem_filter.mp listed).1, same⟩

theorem mem_checkersFor {registry : Registry} {registration : Registration}
    (member : registration ∈ registry.registrations) :
    registration.checker ∈ registry.checkersFor registration.kind := by
  rw [checkersFor_eq]
  exact List.mem_map_of_mem (List.mem_filter.mpr ⟨member, decide_eq_true rfl⟩)

/-- The registry after a step. -/
def apply (registry : Registry) : RegistryStep → Registry
  | .register kind checker => registry.register kind checker
  | .registerChecker checker => registry.registerChecker checker

/-- The registry that a host arrives at. -/
def ofSteps (steps : List RegistryStep) : Registry :=
  steps.foldl apply .empty

theorem checkersFor_register (registry : Registry) (kind other : Kind) (checker : Checker) :
    (registry.register other checker).checkersFor kind =
      registry.checkersFor kind ++ if other = kind then [checker] else [] := by
  rw [checkersFor, register, Dict.lookup_entry]
  by_cases same : other = kind
  · rw [if_pos same.symm, if_pos same, same]
    rfl
  · rw [if_neg (Ne.symm same), if_neg same, Dict.lookup_filter_of_ne (Ne.symm same),
      List.append_nil]
    rfl

/-- Registering a checker for several kinds adds it once for each time that they name the kind. -/
theorem checkersFor_foldl_register (registry : Registry) (kind : Kind) (checker : Checker)
    (kinds : List Kind) : (kinds.foldl (·.register · checker) registry).checkersFor kind =
      registry.checkersFor kind ++ List.replicate (kinds.count kind) checker := by
  induction kinds generalizing registry with
  | nil => rw [List.foldl_nil, List.count_nil, List.replicate_zero, List.append_nil]
  | cons other kinds ih =>
      rw [List.foldl_cons, ih, checkersFor_register, List.append_assoc]
      by_cases same : other = kind
      · rw [if_pos same, same, List.count_cons_self, List.replicate_succ, List.singleton_append]
      · rw [if_neg same, List.count_cons_of_ne same, List.nil_append]

theorem checkersFor_apply (registry : Registry) (kind : Kind) (step : RegistryStep) :
    (registry.apply step).checkersFor kind = registry.checkersFor kind ++ step.added kind := by
  cases step with
  | register other checker => exact registry.checkersFor_register kind other checker
  | registerChecker checker =>
      exact registry.checkersFor_foldl_register kind checker checker.kinds

theorem checkersFor_foldl_apply (registry : Registry) (kind : Kind) (steps : List RegistryStep) :
    (steps.foldl apply registry).checkersFor kind =
      registry.checkersFor kind ++ steps.flatMap (·.added kind) := by
  induction steps generalizing registry with
  | nil => rw [List.foldl_nil, List.flatMap_nil, List.append_nil]
  | cons step steps ih =>
      rw [List.foldl_cons, ih, checkersFor_apply, List.flatMap_cons, List.append_assoc]

/-- The checkers of a kind are those added for it, in the order of the steps. -/
theorem checkersFor_ofSteps (steps : List RegistryStep) (kind : Kind) :
    (ofSteps steps).checkersFor kind = steps.flatMap (·.added kind) :=
  checkersFor_foldl_apply .empty kind steps

/-- Registering checkers one after the other is a history as well. -/
theorem checkersFor_registerAll (checkers : List Checker) (kind : Kind) :
    (empty.registerAll checkers).checkersFor kind =
      checkers.flatMap fun checker => List.replicate (checker.kinds.count kind) checker := by
  have steps : empty.registerAll checkers = ofSteps (checkers.map .registerChecker) := by
    rw [ofSteps, List.foldl_map]
    rfl
  rw [steps, checkersFor_ofSteps, List.flatMap_map]
  rfl

theorem checker_of_mem_registerAll {checkers : List Checker} {registration : Registration}
    (member : registration ∈ (empty.registerAll checkers).registrations) :
    registration.checker ∈ checkers := by
  have chosen := mem_checkersFor member
  rw [checkersFor_registerAll] at chosen
  obtain ⟨checker, listed, same⟩ := List.mem_flatMap.mp chosen
  rw [List.eq_of_mem_replicate same]
  exact listed

end Registry

end TreeLint
