import TreeLint.Proofs.Correspondence
import TreeLint.Proofs.Rule.Failures
import TreeLint.Proofs.Rule.Guarded

/-!
# Staying in bounds

Checkers that agree at the nodes of a walk give the same pass (`TreeLint.Engine.traverse_of_agree`).
The built-in rules agree with those that watch their bounds at all nodes of the tree. So an analysis
that would record a failure for every search that leaves its table, for every cut inside of a
character and for every length that would be negative records none, and finds what the built-in
rules find (`TreeLint.Engine.builtin_in_bounds`).
-/

namespace TreeLint

variable {context : Context} {node : Node}

/-- Two checkers of one rule, for the same kinds, whose checks of a node are the same. -/
structure Checker.AgreeAt (context : Context) (node : Node) (first second : Checker) : Prop where
  descriptor : first.descriptor = second.descriptor
  kinds : first.kinds = second.kinds
  check : ∀ progress, first.check context node progress = second.check context node progress

namespace Checker

theorem AgreeAt.run {first second : Checker} (agree : AgreeAt context node first second)
    (progress : Progress) : first.run context node progress = second.run context node progress := by
  unfold Checker.run record
  rw [agree.descriptor, agree.check]

theorem runAll_of_agree {first second : List Checker}
    (agree : List.Forall₂ (AgreeAt context node) first second) (progress : Progress) :
    runAll context node progress first = runAll context node progress second := by
  induction agree generalizing progress with
  | nil => rfl
  | cons here rest ih =>
      rw [runAll_cons, runAll_cons, here.run]
      exact congrArg (Flow.andThen · _ _) (funext ih)

end Checker

/-- Registries of checkers that agree at a node do the same at the node. -/
theorem Registry.dispatch_of_agree {first second : List Checker}
    (agree : List.Forall₂ (Checker.AgreeAt context node) first second) (progress : Progress) :
    (empty.registerAll first).dispatch context node progress =
      (empty.registerAll second).dispatch context node progress := by
  refine Checker.runAll_of_agree ?_ progress
  rw [checkersFor_registerAll, checkersFor_registerAll]
  refine forall₂_flatMap agree fun one _ other both => ?_
  rw [both.kinds, List.forall₂_iff_get]
  simp only [List.length_replicate, List.get_eq_getElem, List.getElem_replicate, true_and]
  exact fun _ _ _ => both

/-- The built-in rules with their bounds watched. -/
def Builtin.guarded : List Checker :=
  [Casing.guarded, AnonymousMethodList.guarded, AttributeList.guarded]

/-- At a node of the tree it makes no difference whether the bounds are watched. -/
theorem Builtin.guarded_agree (placed : node.Placed context.unit.tree) :
    List.Forall₂ (Checker.AgreeAt context node) guarded checkers :=
  .cons ⟨rfl, rfl, Checker.ofBuilt_check (Casing.guardedFindings_eq placed)⟩
    (.cons ⟨rfl, rfl, AnonymousMethodList.guardedCheck_eq placed⟩
      (.cons ⟨rfl, rfl, Checker.ofBuilt_check (AttributeList.guardedFindings_eq placed)⟩ .nil))

/-- The registry of the built-in rules with their bounds watched. -/
def Registry.guarded : Registry :=
  empty.registerAll Builtin.guarded

/-! ### How checks end -/

/-- There is no answer only where the pass is to stop, so that a check ends normally or because of a
raised signal. -/
theorem AnonymousMethodList.check_ends (context : Context) (node : Node) (progress : Progress) :
    (check context node progress).1 = .done ∨
      (check context node progress).1 = .failed .cancelled ∧
        (check context node progress).2.signal.raised = true := by
  unfold check
  cases emptyList? node with
  | none => exact .inl rfl
  | some list =>
      obtain ⟨-, answered⟩ := isRemovable_withholds context node progress.signal
      generalize isRemovable context node progress.signal = result at answered
      obtain ⟨answer, signal⟩ := result
      rcases answered with same | ⟨withheld, raised⟩
      · cases same
        cases removable context node with
        | true => exact .inl rfl
        | false => exact .inl rfl
      · cases withheld
        exact .inr ⟨rfl, raised⟩

theorem Builtin.check_ends {checker : Checker} (member : checker ∈ checkers) (context : Context)
    (node : Node) (progress : Progress) :
    (checker.check context node progress).1 = .done ∨
      (checker.check context node progress).1 = .failed .cancelled ∧
        (checker.check context node progress).2.signal.raised = true := by
  unfold checkers at member
  rcases List.mem_cons.mp member with rfl | member
  · exact .inl rfl
  rcases List.mem_cons.mp member with rfl | member
  · exact AnonymousMethodList.check_ends context node progress
  · rw [List.mem_singleton.mp member]
    exact .inl rfl

namespace Engine

/-- Engines whose registries do the same at the nodes of a walk do the same over the walk. -/
theorem traverse_of_agree {first second : Engine} {nodes : List Node}
    (agree : ∀ node ∈ nodes, ∀ progress, first.registry.dispatch context node progress =
      second.registry.dispatch context node progress) (progress : Progress) :
    first.traverse context progress nodes = second.traverse context progress nodes := by
  induction nodes generalizing progress with
  | nil => rfl
  | cons node nodes ih =>
      have rest := ih fun other member => agree other (List.mem_cons_of_mem _ member)
      rw [traverse_cons, traverse_cons, agree node List.mem_cons_self, funext rest]

/-- The engine of the built-in rules with their bounds watched. -/
def guarded (settings : Settings) : Engine :=
  ⟨.guarded, fun _ => settings⟩

/-- **Staying in bounds.** Whatever the tree, the host, the settings, the version and the signal, the
analysis by the built-in rules is the one that records a failure as soon as a step leaves its bounds,
and it records none. Every check ends normally, unless the signal is raised and ends it. -/
theorem builtin_in_bounds (settings : Settings) (unit : AnalysisUnit) (signal : Signal) :
    (guarded settings).analyze unit signal = (builtin settings).analyze unit signal ∧
    ((builtin settings).analyze unit signal).1.failures = [] ∧
    ∀ checker ∈ Builtin.checkers, ∀ (node : Node) (progress : Progress),
      let (result, after) := checker.check ⟨unit, settings⟩ node progress
      result = .done ∨ result = .failed .cancelled ∧ after.signal.raised = true := by
  refine ⟨?_, failures_builtin settings unit signal, fun checker member =>
    Builtin.check_ends member ⟨unit, settings⟩⟩
  have same : (guarded settings).pass unit signal = (builtin settings).pass unit signal := by
    refine traverse_of_agree (fun node visited => ?_) _
    exact Registry.dispatch_of_agree
      (Builtin.guarded_agree (Node.placed_of_mem_descendants visited))
  unfold analyze
  rw [same]

end Engine

end TreeLint
