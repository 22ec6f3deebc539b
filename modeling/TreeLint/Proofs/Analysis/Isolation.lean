import TreeLint.Proofs.Finding.Order
import TreeLint.Proofs.Pass.Calls
import TreeLint.Proofs.Rule.Registration
import TreeLint.Rule.Script

/-!
# Checkers that fail

In an undisturbed pass each checker is called exactly once for every time that it was registered
for the kind of a node, unless its rule is off. Whatever the calls report and however they end, the
outcome holds the failures of those that failed, in the order of the calls, and the findings of all
of them, those that failed included (`TreeLint.Engine.outcome_of_calls`).
-/

namespace TreeLint

/-- What a checker does with a node of an undisturbed pass does not depend on what was reported
before. -/
def Checker.Heedless (checker : Checker) (context : Context) : Prop :=
  ∀ node (first second : Progress), first.signal = .quiet → second.signal = .quiet →
    ∀ findings result, checker.check context node first = (result, first.pushAll findings) →
      checker.check context node second = (result, second.pushAll findings)

/-- A call of a heedless checker is the same whatever calls were made before. -/
theorem Call.Follows.of_heedless {context : Context} {earlier : List Call} {call : Call}
    (follows : call.Follows context earlier) (heedless : call.checker.Heedless context)
    (others : List Call) : call.Follows context others where
  check := heedless call.node (progress earlier) (progress others) rfl rfl call.findings
    call.result follows.check
  ends := follows.ends

namespace Engine

/-- The calls that are due in a pass over a unit: node after node, of each checker as often as the
steps have registered it for the kind of the node, in the order of the steps; none of checkers
whose rule is off. -/
def due (steps : List RegistryStep) (context : Context) : List (Node × Checker) :=
  context.unit.tree.root.descendants.flatMap fun node =>
    Checker.due context node (steps.flatMap (·.added (.node node.kind)))

/-- **What the outcome of an undisturbed pass holds.** However the registry came about, and whatever
its checkers report and whichever of them fail or crash, the pass is not stopped. It consists of
exactly the calls that are due. Each of them is what its checker does after the calls before it;
if the checker pays no heed to what was reported, it is what it does as the first call of a pass.
The failures are those of the failed calls in the order of the calls. The findings are those of all
calls, listed by their offsets and rules, and otherwise in the order of the calls. -/
theorem outcome_of_calls (steps : List RegistryStep) (settings : AnalysisUnit → Settings)
    (unit : AnalysisUnit)
    (concludes : ∀ step ∈ steps, step.checker.Concludes ⟨unit, settings unit⟩) :
    ∃ calls : List Call,
      calls.map (fun call => (call.node, call.checker)) = due steps ⟨unit, settings unit⟩ ∧
      (∀ before call after, calls = before ++ call :: after →
        call.Follows ⟨unit, settings unit⟩ before) ∧
      (∀ call ∈ calls, call.checker.Heedless ⟨unit, settings unit⟩ →
        call.Follows ⟨unit, settings unit⟩ []) ∧
      ((Engine.mk (.ofSteps steps) settings).analyze unit .quiet).1.cancelled = false ∧
      ((Engine.mk (.ofSteps steps) settings).analyze unit .quiet).1.failures =
        calls.filterMap Call.failure? ∧
      Finding.Lists (calls.flatMap (·.findings))
        ((Engine.mk (.ofSteps steps) settings).analyze unit .quiet).1.findings := by
  have registered : ∀ kind, ∀ checker ∈ (Registry.ofSteps steps).checkersFor kind,
      checker.Concludes ⟨unit, settings unit⟩ := by
    intro kind checker member
    rw [Registry.checkersFor_ofSteps] at member
    obtain ⟨step, listed, added⟩ := List.mem_flatMap.mp member
    rw [RegistryStep.eq_of_mem_added added]
    exact concludes step listed
  obtain ⟨calls, named, made, ran⟩ := (Engine.mk (.ofSteps steps) settings).exists_calls_traverse
    registered unit.tree.root.descendants []
  have passed : (Engine.mk (.ofSteps steps) settings).pass unit .quiet =
      (.goesOn, Call.progress calls) := ran
  have follows (before : List Call) (call : Call) (after : List Call)
      (split : calls = before ++ call :: after) : call.Follows ⟨unit, settings unit⟩ before := by
    rw [split] at made
    exact made.follows
  refine ⟨calls, ?_, follows, ?_, ?_, ?_, ?_⟩
  · rw [named, due]
    simp only [Registry.checkersFor_ofSteps]
  · intro call member heedless
    obtain ⟨before, after, split⟩ := List.append_of_mem member
    exact (follows before call after split).of_heedless heedless []
  · rw [analyze_not_cancelled_iff, passed]
  · change ((Engine.mk (.ofSteps steps) settings).pass unit .quiet).2.reporter.failures = _
    rw [passed]
    rfl
  · rw [analyze_findings, passed]
    exact Finding.sorted_lists _

end Engine

/-! ### Scripts -/

namespace Script

mutual

/-- An action that neither raises the signal nor asks to stop. -/
def Action.concludes : Action → Bool
  | .report _ _ | .emit _ _ | .look | .crash _ => true
  | .when _ actions => Action.allConclude actions
  | .raise => false
  | .fail error => !error.isCancelled

def Action.allConclude : List Action → Bool
  | [] => true
  | action :: actions => action.concludes && Action.allConclude actions

end

section Run

variable (descriptor : Descriptor) (context : Context) (node : Node)

mutual

/-- In an undisturbed pass such an action reports findings and ends. -/
theorem Action.run_concludes {progress : Progress} (quiet : progress.signal = .quiet) :
    (action : Action) → action.concludes = true →
    ∃ findings result, result.isCancelled = false ∧
      action.run descriptor context node progress = (result, progress.pushAll findings)
  | .report args properties, _ => ⟨[_], .done, rfl, rfl⟩
  | .emit args suggestions, _ => ⟨[_], .done, rfl, rfl⟩
  | .when text actions, calm => by
      rw [Action.run]
      by_cases same : node.text = text
      · rw [if_pos same]
        exact Action.runAll_concludes quiet actions calm
      · rw [if_neg same]
        exact ⟨[], .done, rfl, rfl⟩
  | .look, _ => by
      refine ⟨[], .done, rfl, ?_⟩
      rw [Action.run, Progress.look_of_quiet quiet, quiet]
      rfl
  | .fail error, calm => ⟨[], .failed error, Bool.not_eq_true' _ ▸ calm, rfl⟩
  | .crash message, _ => ⟨[], .crashed message, rfl, rfl⟩

theorem Action.runAll_concludes {progress : Progress} (quiet : progress.signal = .quiet) :
    (actions : List Action) → Action.allConclude actions = true →
    ∃ findings result, result.isCancelled = false ∧
      Action.runAll descriptor context node progress actions = (result, progress.pushAll findings)
  | [], _ => ⟨[], .done, rfl, rfl⟩
  | action :: actions, calm => by
      rw [Action.allConclude, Bool.and_eq_true] at calm
      obtain ⟨first, result, ends, ran⟩ := Action.run_concludes quiet action calm.1
      rw [Action.runAll, ran]
      cases result with
      | done =>
          have still : (progress.pushAll first).signal = .quiet := by
            rw [Progress.pushAll_of_quiet quiet]
            exact quiet
          obtain ⟨others, last, endsToo, rest⟩ := Action.runAll_concludes still actions calm.2
          refine ⟨first ++ others, last, endsToo, ?_⟩
          have whole : progress.pushAll (first ++ others) =
              (progress.pushAll first).pushAll others := List.foldl_append ..
          rw [whole, ← rest]
      | failed error => exact ⟨first, .failed error, ends, rfl⟩
      | crashed message => exact ⟨first, .crashed message, rfl, rfl⟩

end

end Run

/-- A script without actions that raise the signal or ask to stop comes to an end. -/
theorem checker_concludes (descriptor : Descriptor) (kinds : List Kind) {actions : List Action}
    (calm : Action.allConclude actions = true) (context : Context) :
    (checker descriptor kinds actions).Concludes context := fun node _ quiet =>
  Action.runAll_concludes descriptor context node quiet actions calm

end Script

namespace Engine

/-- A rule with an id and nothing else to tell. -/
def plainRule (id : String) : Descriptor :=
  ⟨id, "CL9000", "Plain", .style, .info, true, "plain"⟩

/-- Four registrations for the roots of files: a checker that reports and then fails, one that
crashes, one whose rule is off, and one that reports. -/
def faulty : List RegistryStep := [
  .registerChecker <| Script.checker (plainRule "style/failing") [.node .compilationUnit]
    [.report [] .empty, .fail (.rule "style/failing" "no luck")],
  .register (.node .compilationUnit) <| Script.checker (plainRule "style/crashing") []
    [.crash (some "out of range")],
  .register (.node .compilationUnit) <|
    Script.checker { plainRule "style/silent" with enabledByDefault := false } []
      [.report [] .empty],
  .registerChecker <| Script.checker (plainRule "style/steady") [.node .compilationUnit]
    [.report [] .empty]]

/-- A file with nothing but a root. -/
def bareFile : AnalysisUnit :=
  .withoutSemantics "Bare.cs" ⟨.compilationUnit, []⟩

theorem outcome_of_faulty :
    (∀ step ∈ faulty, step.checker.Concludes ⟨bareFile, .default⟩) ∧
    ∃ calls : List Call, calls.length = 3 ∧
      calls.filterMap Call.failure? =
        [⟨"style/failing", "CompilationUnit", ⟨0, 0⟩, "Rule error in 'style/failing': no luck"⟩,
          ⟨"style/crashing", "CompilationUnit", ⟨0, 0⟩, "checker panicked: out of range"⟩] ∧
      (((Engine.mk (.ofSteps faulty) fun _ => .default).analyze bareFile .quiet).1.findings.map
        (·.ruleId)) = ["style/failing", "style/steady"] := by
  have concludes : ∀ step ∈ faulty, step.checker.Concludes ⟨bareFile, .default⟩ := by
    intro step member
    simp only [faulty, List.mem_cons, List.not_mem_nil, or_false] at member
    rcases member with rfl | rfl | rfl | rfl <;> exact Script.checker_concludes _ _ rfl _
  obtain ⟨calls, named, -, -, -, failures, -⟩ :=
    outcome_of_calls faulty (fun _ => .default) bareFile concludes
  refine ⟨concludes, calls, ?_, ?_, by decide⟩
  · have lengths := congrArg List.length named
    rw [List.length_map] at lengths
    exact lengths
  · rw [← failures]
    decide

end Engine

end TreeLint
