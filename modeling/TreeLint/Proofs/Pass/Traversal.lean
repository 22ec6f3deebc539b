import TreeLint.Analysis.Engine
import TreeLint.Proofs.Pass.Interaction
import TreeLint.Proofs.Rule.Registration

/-!
# Runs over nodes

A run over the checkers of a node, and over the nodes of a unit, goes on with its next part unless
it has been asked to stop. A registry of interactive checkers makes dispatch and the whole
traversal interactive (`TreeLint.Engine.traverse_interactive`), and a traversal of one list of
nodes after another is one traversal of both (`TreeLint.Engine.traverse_append`).
-/

namespace TreeLint

/-- Goes on with the next part of a run, unless the run has been asked to stop. -/
def Flow.andThen (next : Progress → Flow × Progress) : Flow → Progress → Flow × Progress
  | .stopped, progress => (.stopped, progress)
  | .goesOn, progress => next progress

theorem Interactive.andThen {next : Progress → Flow × Progress} (interactive : Interactive next)
    (flow : Flow) : Interactive (flow.andThen next) := by
  cases flow with
  | stopped => exact .finish Flow.stopped
  | goesOn => exact interactive

namespace Checker

/-- Every check of the checker is interactive. -/
def IsInteractive (checker : Checker) : Prop :=
  ∀ context node, Interactive (checker.check context node)

/-- A checker whose rule is off leaves the pass alone. -/
theorem run_of_off {checker : Checker} {context : Context} (node : Node) (progress : Progress)
    (off : context.severityFor? checker.descriptor = none) :
    checker.run context node progress = (.goesOn, progress) := by
  simp only [run, off]

/-- A checker whose rule is on checks the node, and a failure is recorded. -/
theorem run_of_on {checker : Checker} {context : Context} {severity : Severity} (node : Node)
    (progress : Progress) (on : context.severityFor? checker.descriptor = some severity) :
    checker.run context node progress =
      (if (checker.check context node progress).1.isCancelled then .stopped else .goesOn,
        checker.record node (checker.check context node progress).1
          (checker.check context node progress).2) := by
  simp only [run, on]

theorem runAll_cons (checker : Checker) (checkers : List Checker) (context : Context)
    (node : Node) (progress : Progress) :
    runAll context node progress (checker :: checkers) =
      (checker.run context node progress).1.andThen
        (fun progress => runAll context node progress checkers)
        (checker.run context node progress).2 := by
  rw [runAll]
  rcases checker.run context node progress with ⟨flow, progress⟩
  cases flow <;> rfl

theorem record_interactive (checker : Checker) (node : Node) (result : CheckResult) :
    Interactive fun progress => ((), checker.record node result progress) := by
  unfold record
  cases result.failureMessage? with
  | none => exact .finish ()
  | some message => exact .recordFailure _

theorem IsInteractive.run {checker : Checker} (interactive : checker.IsInteractive)
    (context : Context) (node : Node) : Interactive (checker.run context node) := by
  cases setting : context.severityFor? checker.descriptor with
  | none =>
      have off : checker.run context node = _ := funext (run_of_off node · setting)
      rw [off]
      exact .finish Flow.goesOn
  | some severity =>
      have on : checker.run context node = _ := funext (run_of_on node · setting)
      rw [on]
      exact (interactive context node).bind _ fun result =>
        (checker.record_interactive node result).bind _ fun _ =>
          .finish (if result.isCancelled then Flow.stopped else Flow.goesOn)

theorem runAll_interactive {checkers : List Checker}
    (interactive : ∀ checker ∈ checkers, checker.IsInteractive) (context : Context) (node : Node) :
    Interactive fun progress => runAll context node progress checkers := by
  induction checkers with
  | nil => exact .finish Flow.goesOn
  | cons checker checkers ih =>
      have rest := ih fun other member => interactive other (List.mem_cons_of_mem _ member)
      rw [funext (runAll_cons checker checkers context node)]
      exact ((interactive checker List.mem_cons_self).run context node).bind _ rest.andThen

end Checker

namespace Registry

/-- Every registered checker is interactive. -/
def IsInteractive (registry : Registry) : Prop :=
  ∀ registration ∈ registry.registrations, registration.checker.IsInteractive

theorem IsInteractive.dispatch {registry : Registry} (interactive : registry.IsInteractive)
    (context : Context) (node : Node) : Interactive (registry.dispatch context node) := by
  refine Checker.runAll_interactive (fun checker member => ?_) context node
  obtain ⟨registration, listed, rfl⟩ := exists_registration member
  exact interactive registration listed

end Registry

namespace Engine

section Outcome

variable (engine : Engine) (unit : AnalysisUnit) (signal : Signal)

/-- The context of the pass over a unit. -/
def context : Context :=
  ⟨unit, engine.settings unit⟩

theorem analyze_findings : (engine.analyze unit signal).1.findings =
    Finding.sorted (engine.pass unit signal).2.reporter.findings := rfl

theorem analyze_cancelled_iff : (engine.analyze unit signal).1.cancelled = true ↔
    (engine.pass unit signal).1 = .stopped :=
  decide_eq_true_iff

theorem analyze_not_cancelled_iff : (engine.analyze unit signal).1.cancelled = false ↔
    (engine.pass unit signal).1 = .goesOn := by
  change decide ((engine.pass unit signal).1 = .stopped) = false ↔ _
  cases (engine.pass unit signal).1 with
  | stopped => exact ⟨fun impossible => Bool.noConfusion impossible, Flow.noConfusion⟩
  | goesOn => exact ⟨fun _ => rfl, fun _ => rfl⟩

end Outcome

variable (engine : Engine) (context : Context)

theorem traverse_cons (progress : Progress) (node : Node) (nodes : List Node) :
    engine.traverse context progress (node :: nodes) =
      if progress.look.signal.raised then (.stopped, progress.look)
      else
        (engine.registry.dispatch context node progress.look).1.andThen
          (fun progress => engine.traverse context progress nodes)
          (engine.registry.dispatch context node progress.look).2 := by
  rw [traverse]
  cases progress.look.signal.raised with
  | true => rfl
  | false =>
      rcases engine.registry.dispatch context node progress.look with ⟨flow, progress⟩
      cases flow <;> rfl

/-- A traversal of two lists of nodes traverses the second list if the first does not stop. -/
theorem traverse_append (progress : Progress) (first second : List Node) :
    engine.traverse context progress (first ++ second) =
      (engine.traverse context progress first).1.andThen
        (fun progress => engine.traverse context progress second)
        (engine.traverse context progress first).2 := by
  induction first generalizing progress with
  | nil => rfl
  | cons node nodes ih =>
      rw [List.cons_append, traverse_cons, traverse_cons]
      cases progress.look.signal.raised with
      | true => rfl
      | false =>
          rcases engine.registry.dispatch context node progress.look with ⟨flow, progress⟩
          cases flow with
          | stopped => rfl
          | goesOn => exact ih progress

theorem traverse_single (progress : Progress) (node : Node) :
    engine.traverse context progress [node] =
      if progress.look.signal.raised then (.stopped, progress.look)
      else engine.registry.dispatch context node progress.look := by
  rw [traverse_cons]
  cases progress.look.signal.raised with
  | true => rfl
  | false =>
      rcases engine.registry.dispatch context node progress.look with ⟨flow, after⟩
      cases flow <;> rfl

variable {engine context} in
/-- A pass that is not stopped has come to its last node and has found the signal unraised
there. -/
theorem traverse_goesOn {progress : Progress} {before : List Node} {last : Node}
    (goesOn : (engine.traverse context progress (before ++ [last])).1 = .goesOn) :
    ∃ reached, engine.traverse context progress before = (.goesOn, reached) ∧
      reached.look.signal.raised = false ∧
      engine.traverse context progress (before ++ [last]) =
        engine.registry.dispatch context last reached.look := by
  rw [traverse_append] at goesOn ⊢
  revert goesOn
  rcases engine.traverse context progress before with ⟨flow, reached⟩
  cases flow with
  | stopped => exact fun goesOn => Flow.noConfusion goesOn
  | goesOn =>
      change (engine.traverse context reached [last]).1 = .goesOn →
        ∃ _, _ ∧ _ ∧ engine.traverse context reached [last] = _
      rw [traverse_single]
      cases raised : reached.look.signal.raised with
      | true => exact fun goesOn => Flow.noConfusion goesOn
      | false => exact fun _ => ⟨reached, rfl, raised, rfl⟩

variable {engine context} in
/-- The last node of a pass that has come to it unraised is checked. -/
theorem traverse_of_reached {progress reached : Progress} {before : List Node} {last : Node}
    (run : engine.traverse context progress before = (.goesOn, reached))
    (unraised : reached.look.signal.raised = false) :
    engine.traverse context progress (before ++ [last]) =
      engine.registry.dispatch context last reached.look := by
  rw [traverse_append, run]
  change engine.traverse context reached [last] = _
  rw [traverse_single, unraised]
  rfl

theorem traverse_interactive (interactive : engine.registry.IsInteractive) (nodes : List Node) :
    Interactive fun progress => engine.traverse context progress nodes := by
  induction nodes with
  | nil => exact .finish Flow.goesOn
  | cons node nodes ih =>
      have visited := (interactive.dispatch context node).bind _ ih.andThen
      exact (visited.unlessRaised Flow.stopped).of_eq fun progress =>
        engine.traverse_cons context progress node nodes

end Engine

end TreeLint
