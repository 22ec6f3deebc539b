import TreeLint.Proofs.Rule.Builtin

/-!
# Checks without failures

A check is unfailing when it ends with no failure and records none itself, whatever the signal
says. Then nothing that runs such checks records a failure: no run over the checkers of a node and
no traversal (`TreeLint.Engine.failures_traverse`). The built-in rules are of this kind, so that
their outcomes have no failures, whatever the tree, the host and the signal
(`TreeLint.Engine.failures_builtin`).
-/

namespace TreeLint

namespace Progress

theorem failures_push (progress : Progress) (finding : Finding) :
    (progress.push finding).reporter.failures = progress.reporter.failures := by
  unfold push
  dsimp only
  split <;> rfl

theorem failures_pushAll (progress : Progress) (findings : List Finding) :
    (progress.pushAll findings).reporter.failures = progress.reporter.failures := by
  induction findings generalizing progress with
  | nil => rfl
  | cons finding findings ih => exact (ih _).trans (progress.failures_push finding)

end Progress

namespace Checker

/-- No check of the checker ends with a failure or records one. -/
def Unfailing (checker : Checker) : Prop :=
  ∀ (context : Context) (node : Node) (progress : Progress),
    (checker.check context node progress).1.failureMessage? = none ∧
      (checker.check context node progress).2.reporter.failures = progress.reporter.failures

theorem unfailing_ofFindings (descriptor : Descriptor) (kinds : List Kind)
    (findings : Context → Node → List Finding) :
    (Checker.ofFindings descriptor kinds findings).Unfailing :=
  fun context node progress => ⟨rfl, progress.failures_pushAll (findings context node)⟩

variable (context : Context) (node : Node)

theorem Unfailing.run {checker : Checker} (unfailing : checker.Unfailing) (progress : Progress) :
    (checker.run context node progress).2.reporter.failures = progress.reporter.failures := by
  cases setting : context.severityFor? checker.descriptor with
  | none => rw [run_of_off node progress setting]
  | some severity =>
      obtain ⟨ending, kept⟩ := unfailing context node progress
      rw [run_of_on node progress setting, record, ending]
      exact kept

theorem failures_runAll {checkers : List Checker}
    (unfailing : ∀ checker ∈ checkers, checker.Unfailing) (progress : Progress) :
    (runAll context node progress checkers).2.reporter.failures = progress.reporter.failures := by
  induction checkers generalizing progress with
  | nil => rfl
  | cons checker checkers ih =>
      have first := (unfailing checker List.mem_cons_self).run context node progress
      have rest := ih fun other member => unfailing other (List.mem_cons_of_mem _ member)
      rw [runAll_cons]
      cases (checker.run context node progress).1 with
      | stopped => exact first
      | goesOn => exact (rest _).trans first

end Checker

namespace AnonymousMethodList

/-- Whether a list can be removed is asked without recording anything. -/
theorem checker_unfailing : checker.Unfailing := by
  intro context node progress
  refine ⟨check_unfailing context node progress, ?_⟩
  change (check context node progress).2.reporter.failures = _
  unfold check
  cases emptyList? node with
  | none => rfl
  | some list =>
      obtain ⟨answer, signal⟩ := isRemovable context node progress.signal
      match answer with
      | none => rfl
      | some false => rfl
      | some true => exact Progress.failures_push _ _

end AnonymousMethodList

/-- The checkers of a node's kind are all unfailing. -/
theorem Builtin.unfailing {kind : NodeKind} {checker : Checker}
    (chosen : checker ∈ Registry.builtin.checkersFor (.node kind)) : checker.Unfailing := by
  rw [checkersFor, Option.mem_toList, Option.map_eq_some_iff] at chosen
  obtain ⟨rule, known, rfl⟩ := chosen
  unfold ruleFor? at known
  split at known
  · cases known
    exact Checker.unfailing_ofFindings _ _ _
  · cases known
    exact Checker.unfailing_ofFindings _ _ _
  · cases known
    exact AnonymousMethodList.checker_unfailing
  · cases known
    exact Checker.unfailing_ofFindings _ _ _
  · cases known

namespace Engine

theorem failures_traverse {engine : Engine} {context : Context}
    (unfailing : ∀ kind, ∀ checker ∈ engine.registry.checkersFor (.node kind), checker.Unfailing)
    (progress : Progress) (nodes : List Node) :
    (engine.traverse context progress nodes).2.reporter.failures =
      progress.reporter.failures := by
  induction nodes generalizing progress with
  | nil => rfl
  | cons node nodes ih =>
      have here : (engine.registry.dispatch context node progress.look).2.reporter.failures =
          progress.reporter.failures :=
        Checker.failures_runAll context node (unfailing node.kind) progress.look
      rw [traverse_cons]
      split
      · rfl
      · cases (engine.registry.dispatch context node progress.look).1 with
        | stopped => exact here
        | goesOn => exact (ih _).trans here

/-- The built-in rules record no failures, whatever becomes of the signal. -/
theorem failures_builtin (settings : Settings) (unit : AnalysisUnit) (signal : Signal) :
    ((builtin settings).analyze unit signal).1.failures = [] :=
  failures_traverse (fun _ _ chosen => Builtin.unfailing chosen) (.start signal true)
    unit.tree.root.descendants

end Engine

end TreeLint
