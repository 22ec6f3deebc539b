import Mathlib.Data.List.Induction
import TreeLint.Proofs.Rule.Registration

/-!
# The rules of a registry

A registry keeps one description for each id: the one of the first registration with this id. The
descriptions stand in the order of these first registrations
(`TreeLint.Registry.pairwise_firstIndex_descriptors`), and an id is looked up as if all
registrations were searched in order (`TreeLint.Registry.descriptor?_ofSteps`). Checkers on the
other hand are kept as often as they are registered, so that several checkers, with descriptions of
their own, may go by one id.
-/

namespace TreeLint

/-- The descriptions that a step registers: one for each kind. -/
def RegistryStep.registered : RegistryStep → List Descriptor
  | .register _ checker => [checker.descriptor]
  | .registerChecker checker => checker.kinds.map fun _ => checker.descriptor

namespace Registry

/-- The place of the first of several descriptions with an id. -/
def firstIndex (all : List Descriptor) (ruleId : String) : Nat :=
  all.findIdx (·.id = ruleId)

theorem firstIndex_lt_iff {all : List Descriptor} {ruleId : String} :
    firstIndex all ruleId < all.length ↔ ∃ descriptor ∈ all, descriptor.id = ruleId := by
  simp [firstIndex, List.findIdx_lt_length]

/-- An id that has come up keeps its place. -/
theorem firstIndex_append {all : List Descriptor} {ruleId : String}
    (known : ∃ descriptor ∈ all, descriptor.id = ruleId) (later : List Descriptor) :
    firstIndex (all ++ later) ruleId = firstIndex all ruleId := by
  simp only [firstIndex, List.findIdx_append]
  refine if_pos ?_
  simpa [List.findIdx_lt_length] using known

theorem firstIndex_concat {all : List Descriptor} {descriptor : Descriptor}
    (fresh : ¬∃ other ∈ all, other.id = descriptor.id) :
    firstIndex (all ++ [descriptor]) descriptor.id = all.length := by
  simp only [firstIndex, List.findIdx_append]
  rw [if_neg (by simpa [List.findIdx_lt_length] using fresh)]
  simp [List.findIdx_cons]

/-! ### Descriptions added one after the other -/

theorem find?_addDescriptor (known : List Descriptor) (descriptor : Descriptor) (ruleId : String) :
    (addDescriptor known descriptor).find? (·.id = ruleId) =
      (known ++ [descriptor]).find? (·.id = ruleId) := by
  unfold addDescriptor
  split
  · next present =>
      -- The first description with the id of the new one is there already.
      rw [List.find?_append]
      cases found : known.find? (·.id = ruleId) with
      | some _ => rfl
      | none =>
          have other : descriptor.id ≠ ruleId := by
            rintro rfl
            obtain ⟨same, member, ids⟩ := List.any_eq_true.mp present
            exact List.find?_eq_none.mp found same member ids
          simp [other]
  · rfl

theorem find?_foldl_addDescriptor (all known : List Descriptor) (ruleId : String) :
    (all.foldl addDescriptor known).find? (·.id = ruleId) =
      (known ++ all).find? (·.id = ruleId) := by
  induction all generalizing known with
  | nil => rw [List.foldl_nil, List.append_nil]
  | cons descriptor all ih =>
      rw [List.foldl_cons, ih, List.find?_append, find?_addDescriptor, ← List.find?_append,
        List.append_assoc, List.singleton_append]

/-- Whatever is kept has been added. -/
theorem mem_of_mem_foldl_addDescriptor {all : List Descriptor} {descriptor : Descriptor}
    (member : descriptor ∈ all.foldl addDescriptor []) :
    ∃ other ∈ all, other.id = descriptor.id := by
  have found : ((all.foldl addDescriptor []).find? (·.id = descriptor.id)).isSome := by
    simpa using ⟨descriptor, member, rfl⟩
  rw [find?_foldl_addDescriptor] at found
  simpa using found

/-- Descriptions are kept in the order in which their ids have first come up. -/
theorem pairwise_foldl_addDescriptor (all : List Descriptor) :
    (all.foldl addDescriptor []).Pairwise fun first second =>
      firstIndex all first.id < firstIndex all second.id := by
  induction all using List.reverseRecOn with
  | nil => exact .nil
  | append_singleton all descriptor ih =>
      have kept : (all.foldl addDescriptor []).Pairwise fun first second =>
          firstIndex (all ++ [descriptor]) first.id <
            firstIndex (all ++ [descriptor]) second.id := by
        refine ih.imp_of_mem fun member memberToo before => ?_
        rwa [firstIndex_append (mem_of_mem_foldl_addDescriptor member),
          firstIndex_append (mem_of_mem_foldl_addDescriptor memberToo)]
      rw [List.foldl_append, List.foldl_cons, List.foldl_nil, addDescriptor]
      split
      · exact kept
      · next fresh =>
          refine List.pairwise_append.mpr ⟨kept, List.pairwise_singleton _ _, ?_⟩
          intro first member second last
          cases List.mem_singleton.mp last
          have known := mem_of_mem_foldl_addDescriptor member
          have unknown : ¬∃ other ∈ all, other.id = descriptor.id := by
            intro present
            apply fresh
            have found : (all.find? (·.id = descriptor.id)).isSome := by simpa using present
            rw [← List.nil_append all, ← find?_foldl_addDescriptor] at found
            simpa using found
          rw [firstIndex_append known, firstIndex_concat unknown]
          exact firstIndex_lt_iff.mpr known

/-! ### Registries -/

theorem descriptors_foldl_register (registry : Registry) (checker : Checker) (kinds : List Kind) :
    (kinds.foldl (·.register · checker) registry).descriptors =
      (kinds.map fun _ => checker.descriptor).foldl addDescriptor registry.descriptors := by
  induction kinds generalizing registry with
  | nil => rfl
  | cons kind kinds ih => exact ih (registry.register kind checker)

theorem descriptors_apply (registry : Registry) (step : RegistryStep) :
    (registry.apply step).descriptors =
      step.registered.foldl addDescriptor registry.descriptors := by
  cases step with
  | register kind checker => rfl
  | registerChecker checker => exact registry.descriptors_foldl_register checker checker.kinds

theorem descriptors_foldl_apply (registry : Registry) (steps : List RegistryStep) :
    (steps.foldl apply registry).descriptors =
      (steps.flatMap (·.registered)).foldl addDescriptor registry.descriptors := by
  induction steps generalizing registry with
  | nil => rfl
  | cons step steps ih =>
      rw [List.foldl_cons, ih, descriptors_apply, List.flatMap_cons, List.foldl_append]

/-- The rules of a registry are what the steps have registered, each id once. -/
theorem descriptors_ofSteps (steps : List RegistryStep) :
    (ofSteps steps).descriptors = (steps.flatMap (·.registered)).foldl addDescriptor [] :=
  descriptors_foldl_apply .empty steps

theorem pairwise_firstIndex_descriptors (steps : List RegistryStep) :
    (ofSteps steps).descriptors.Pairwise fun first second =>
      firstIndex (steps.flatMap (·.registered)) first.id <
        firstIndex (steps.flatMap (·.registered)) second.id := by
  rw [descriptors_ofSteps]
  exact pairwise_foldl_addDescriptor _

/-- No two rules of a registry go by one id. -/
theorem nodup_ids (steps : List RegistryStep) :
    ((ofSteps steps).descriptors.map (·.id)).Nodup := by
  refine List.pairwise_map.mpr ((pairwise_firstIndex_descriptors steps).imp ?_)
  intro first second before same
  rw [same] at before
  exact Nat.lt_irrefl _ before

theorem descriptor?_ofSteps (steps : List RegistryStep) (ruleId : String) :
    (ofSteps steps).descriptor? ruleId =
      (steps.flatMap (·.registered)).find? (·.id = ruleId) := by
  rw [descriptor?, descriptors_ofSteps]
  exact find?_foldl_addDescriptor _ [] ruleId

/-- Every id that has been registered is the id of a rule. -/
theorem exists_descriptor_of_registered {steps : List RegistryStep} {descriptor : Descriptor}
    (registered : descriptor ∈ steps.flatMap (·.registered)) :
    ∃ rule ∈ (ofSteps steps).descriptors, rule.id = descriptor.id := by
  have found : ((ofSteps steps).descriptor? descriptor.id).isSome := by
    rw [descriptor?_ofSteps, List.find?_isSome]
    exact ⟨descriptor, registered, decide_eq_true rfl⟩
  simpa [descriptor?] using found

end Registry

theorem RegistryStep.registered_of_added {step : RegistryStep} {kind : Kind} {checker : Checker}
    (member : checker ∈ step.added kind) : checker.descriptor ∈ step.registered := by
  cases step with
  | register other registered =>
      rw [eq_of_mem_added member]
      exact List.mem_singleton_self _
  | registerChecker registered =>
      rw [eq_of_mem_added member]
      obtain ⟨some, -⟩ := List.mem_replicate.mp member
      exact List.mem_map_of_mem (List.count_pos_iff.mp (Nat.pos_of_ne_zero some))

/-- The rule of a checker that checks nodes of some kind is one of the registry. -/
theorem Registry.exists_descriptor_of_checker {steps : List RegistryStep} {kind : Kind}
    {checker : Checker} (member : checker ∈ (ofSteps steps).checkersFor kind) :
    ∃ rule ∈ (ofSteps steps).descriptors, rule.id = checker.descriptor.id := by
  rw [checkersFor_ofSteps] at member
  obtain ⟨step, listed, added⟩ := List.mem_flatMap.mp member
  exact exists_descriptor_of_registered
    (List.mem_flatMap.mpr ⟨step, listed, RegistryStep.registered_of_added added⟩)

end TreeLint
