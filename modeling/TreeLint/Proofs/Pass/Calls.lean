import TreeLint.Proofs.Pass.Traversal

/-!
# Calls of checkers

A call is a check of a node that has come to its end: what was reported in it and how it ended. In
a pass whose signal is left alone, and whose checkers always come to an end, what has been reported
is what the calls made so far account for (`TreeLint.Call.progress`). Whether a call failed makes no
difference to the calls after it: the checkers of a node are called one after the other
(`TreeLint.Checker.exists_calls_runAll`), and so are those of all nodes
(`TreeLint.Engine.exists_calls_traverse`).
-/

namespace TreeLint

/-- A check of a node that has come to its end: what it reported and how it ended. -/
structure Call where
  node : Node
  checker : Checker
  findings : List Finding
  result : CheckResult

namespace Call

/-- The failure that the end of a call is: it names the rule of the checker, and the kind and the
bytes of the node, and has the text of the error or of the crash. -/
def failure? (call : Call) : Option Failure :=
  let failure (message : String) : Failure :=
    ⟨call.checker.descriptor.id, call.node.kind.name, call.node.span, message⟩
  match call.result with
  | .done => none
  | .failed error => some (failure error.message)
  | .crashed (some message) => some (failure ("checker panicked: " ++ message))
  | .crashed none => some (failure "checker panicked: unknown panic payload")

/-- The progress of an undisturbed pass in which calls have been made. -/
def progress (calls : List Call) : Progress :=
  ⟨.quiet, calls.flatMap (·.findings), calls.filterMap failure?, true⟩

/-- The call is what its checker does with its node in an undisturbed pass after earlier calls, and
it is no request to stop. -/
structure Follows (context : Context) (earlier : List Call) (call : Call) : Prop where
  check : call.checker.check context call.node (progress earlier) =
    (call.result, (progress earlier).pushAll call.findings)
  ends : call.result.isCancelled = false

/-- Calls are made one after the other after earlier ones. -/
def AllFollow (context : Context) : (earlier calls : List Call) → Prop
  | _, [] => True
  | earlier, call :: calls =>
      call.Follows context earlier ∧ AllFollow context (earlier ++ [call]) calls

variable {context : Context}

theorem AllFollow.append {earlier first second : List Call}
    (former : AllFollow context earlier first)
    (latter : AllFollow context (earlier ++ first) second) :
    AllFollow context earlier (first ++ second) := by
  induction first generalizing earlier with
  | nil =>
      rw [List.append_nil] at latter
      exact latter
  | cons call first ih =>
      refine ⟨former.1, ih former.2 ?_⟩
      rw [List.append_assoc]
      exact latter

theorem AllFollow.follows {earlier before after : List Call} {call : Call}
    (made : AllFollow context earlier (before ++ call :: after)) :
    call.Follows context (earlier ++ before) := by
  induction before generalizing earlier with
  | nil =>
      rw [List.append_nil]
      exact made.1
  | cons first before ih =>
      have rest := ih made.2
      rw [List.append_assoc] at rest
      exact rest

/-- A call adds its findings and the failure that its end is. -/
theorem Follows.progress_append {earlier : List Call} {call : Call}
    (follows : call.Follows context earlier) :
    call.checker.record call.node call.result ((progress earlier).pushAll call.findings) =
      progress (earlier ++ [call]) := by
  have failures : (progress (earlier ++ [call])).reporter.failures =
      earlier.filterMap failure? ++ call.failure?.toList := by
    change (earlier ++ [call]).filterMap failure? = _
    rw [List.filterMap_append]
    cases same : call.failure? with
    | none => rw [List.filterMap_cons_none same, List.filterMap_nil, Option.toList_none]
    | some failure => rw [List.filterMap_cons_some same, List.filterMap_nil, Option.toList_some]
  have findings : (progress (earlier ++ [call])).reporter.findings =
      earlier.flatMap (·.findings) ++ call.findings := by
    change (earlier ++ [call]).flatMap (·.findings) = _
    rw [List.flatMap_append, List.flatMap_singleton]
  have whole : progress (earlier ++ [call]) =
      ⟨.quiet, earlier.flatMap (·.findings) ++ call.findings,
        earlier.filterMap failure? ++ call.failure?.toList, true⟩ := by
    rw [← failures, ← findings]
    rfl
  rw [whole, Progress.pushAll_of_quiet rfl]
  have ends := follows.ends
  obtain ⟨node, checker, reported, result⟩ := call
  cases result with
  | done => simp only [Checker.record, CheckResult.failureMessage?, failure?, progress,
      Option.toList_none, List.append_nil]
  | failed error =>
      have fault : error.isCancelled = false := ends
      simp only [Checker.record, CheckResult.failureMessage?, fault, Bool.false_eq_true,
        ↓reduceIte, failure?, progress, Option.toList_some]
      rfl
  | crashed message =>
      cases message with
      | none => rfl
      | some message => rfl

end Call

namespace Checker

/-- In an undisturbed pass a check reports findings and comes to an end that is no request to stop:
a normal end, an error or a crash. What it reports and how it ends may depend on everything that
was reported before. -/
def Concludes (checker : Checker) (context : Context) : Prop :=
  ∀ node (progress : Progress), progress.signal = .quiet →
    ∃ findings result, result.isCancelled = false ∧
      checker.check context node progress = (result, progress.pushAll findings)

/-- The calls that are due at a node: one of each checker whose rule is on. -/
def due (context : Context) (node : Node) (checkers : List Checker) : List (Node × Checker) :=
  (checkers.filter fun checker => (context.severityFor? checker.descriptor).isSome).map (node, ·)

theorem exists_call_run {checker : Checker} {context : Context}
    (concludes : checker.Concludes context) (node : Node) {severity : Severity}
    (on : context.severityFor? checker.descriptor = some severity) (earlier : List Call) :
    ∃ call : Call, call.node = node ∧ call.checker = checker ∧ call.Follows context earlier ∧
      checker.run context node (Call.progress earlier) =
        (.goesOn, Call.progress (earlier ++ [call])) := by
  obtain ⟨findings, result, ends, checked⟩ := concludes node (Call.progress earlier) rfl
  have follows : Call.Follows context earlier ⟨node, checker, findings, result⟩ := ⟨checked, ends⟩
  refine ⟨⟨node, checker, findings, result⟩, rfl, rfl, follows, ?_⟩
  rw [run_of_on node _ on, checked, ← follows.progress_append]
  simp only [ends, Bool.false_eq_true, ↓reduceIte]

/-- The checkers of a node are called one after the other, whichever of them fail. -/
theorem exists_calls_runAll {checkers : List Checker} {context : Context}
    (concludes : ∀ checker ∈ checkers, checker.Concludes context) (node : Node)
    (earlier : List Call) :
    ∃ calls : List Call, calls.map (fun call => (call.node, call.checker)) =
        due context node checkers ∧
      Call.AllFollow context earlier calls ∧
      runAll context node (Call.progress earlier) checkers =
        (.goesOn, Call.progress (earlier ++ calls)) := by
  induction checkers generalizing earlier with
  | nil =>
      refine ⟨[], rfl, trivial, ?_⟩
      rw [List.append_nil]
      rfl
  | cons checker checkers ih =>
      have others := ih fun other member => concludes other (List.mem_cons_of_mem _ member)
      rw [runAll_cons, due, List.filter_cons]
      cases setting : context.severityFor? checker.descriptor with
      | none =>
          rw [run_of_off node _ setting]
          exact others earlier
      | some severity =>
          obtain ⟨call, rfl, rfl, follows, ran⟩ :=
            exists_call_run (concludes _ List.mem_cons_self) node setting earlier
          obtain ⟨calls, named, made, rest⟩ := others (earlier ++ [call])
          rw [List.append_assoc] at rest
          rw [ran]
          refine ⟨call :: calls, ?_, ⟨follows, made⟩, rest⟩
          rw [List.map_cons, named]
          rfl

end Checker

namespace Engine

/-- The checkers of all nodes are called, node after node. -/
theorem exists_calls_traverse (engine : Engine) {context : Context}
    (concludes : ∀ kind, ∀ checker ∈ engine.registry.checkersFor kind, checker.Concludes context)
    (nodes : List Node) (earlier : List Call) :
    ∃ calls : List Call, calls.map (fun call => (call.node, call.checker)) =
        nodes.flatMap (fun node =>
          Checker.due context node (engine.registry.checkersFor (.node node.kind))) ∧
      Call.AllFollow context earlier calls ∧
      engine.traverse context (Call.progress earlier) nodes =
        (.goesOn, Call.progress (earlier ++ calls)) := by
  induction nodes generalizing earlier with
  | nil =>
      refine ⟨[], rfl, trivial, ?_⟩
      rw [List.append_nil]
      rfl
  | cons node nodes ih =>
      obtain ⟨calls, named, made, ran⟩ :=
        Checker.exists_calls_runAll (concludes (.node node.kind)) node earlier
      obtain ⟨others, namedToo, madeToo, rest⟩ := ih (earlier ++ calls)
      have looked : (Call.progress earlier).look = Call.progress earlier := rfl
      have dispatched : engine.registry.dispatch context node (Call.progress earlier) = _ := ran
      refine ⟨calls ++ others, ?_, made.append madeToo, ?_⟩
      · rw [List.map_append, List.flatMap_cons, named, namedToo]
      · rw [traverse_cons, looked, dispatched, ← List.append_assoc]
        exact rest

end Engine

end TreeLint
