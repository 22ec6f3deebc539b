import TreeLint.Proofs.Analysis.Isolation
import TreeLint.Proofs.Rule.Descriptors
import TreeLint.Proofs.Rule.Ownership

/-!
# Where findings and failures come from

A pass gives each node to the checkers of its kind, in turns, until it is stopped. If checkers
report under their own rules, everything in the outcome of a pass has been added in one of these
turns, stopped or not: it carries the id of the checker whose turn it was, which is the id of a rule
of the registry, and the settings have that rule on. A finding has the very severity that the
settings give to the checker's own description (`TreeLint.Engine.findings_attributed`).
-/

namespace TreeLint

/-- A node is given to a checker: what the pass has come to before. -/
structure Turn where
  node : Node
  checker : Checker
  before : Progress

namespace Turn

variable (context : Context) (turn : Turn)

/-- What the pass comes to in a turn. -/
def after : Progress :=
  (turn.checker.run context turn.node turn.before).2

/-- The findings that are added in a turn. -/
def findings : List Finding :=
  (turn.after context).reporter.findings.drop turn.before.reporter.findings.length

/-- The failures that are added in a turn. -/
def failures : List Failure :=
  (turn.after context).reporter.failures.drop turn.before.reporter.failures.length

end Turn

/-- The turns at a node, until one of the checkers asks to stop. -/
def Checker.turns (context : Context) (node : Node) (progress : Progress) :
    List Checker → List Turn
  | [] => []
  | checker :: checkers =>
      ⟨node, checker, progress⟩ ::
        match checker.run context node progress with
        | (.stopped, _) => []
        | (.goesOn, progress) => turns context node progress checkers

/-- The turns of a pass over nodes, until it is stopped. -/
def Engine.turns (engine : Engine) (context : Context) (progress : Progress) :
    List Node → List Turn
  | [] => []
  | node :: nodes =>
      if progress.look.signal.raised then []
      else
        Checker.turns context node progress.look (engine.registry.checkersFor (.node node.kind)) ++
          match engine.registry.dispatch context node progress.look with
          | (.stopped, _) => []
          | (.goesOn, progress) => engine.turns context progress nodes

/-! ### One turn -/

theorem Checker.ReportsOwn.addsUnder_run {checker : Checker} {context : Context}
    (own : checker.ReportsOwn context) (node : Node) (progress : Progress) :
    context.AddsUnder checker.descriptor progress (checker.run context node progress).2 := by
  cases setting : context.severityFor? checker.descriptor with
  | none =>
      rw [run_of_off node progress setting]
      exact .refl progress
  | some severity =>
      rw [run_of_on node progress setting, record]
      cases (checker.check context node progress).1.failureMessage? with
      | none => exact own node progress
      | some message => exact (own node progress).trans (.recordFailure _ rfl)

namespace Turn

variable {context : Context} {turn : Turn}

theorem findings_after (own : turn.checker.ReportsOwn context) :
    (turn.after context).reporter.findings =
      turn.before.reporter.findings ++ turn.findings context := by
  obtain ⟨added, whole, -⟩ := (own.addsUnder_run turn.node turn.before).findings
  rw [findings, after, whole, List.drop_left]

theorem failures_after (own : turn.checker.ReportsOwn context) :
    (turn.after context).reporter.failures =
      turn.before.reporter.failures ++ turn.failures context := by
  obtain ⟨added, whole, -⟩ := (own.addsUnder_run turn.node turn.before).failures
  rw [failures, after, whole, List.drop_left]

/-- A checker whose rule is off adds nothing. -/
theorem after_of_off (off : context.severityFor? turn.checker.descriptor = none) :
    turn.after context = turn.before := by
  rw [after, Checker.run_of_off turn.node turn.before off]

/-- A finding that is added in a turn has the id of the rule, and the severity that the rule has in
the settings. -/
theorem of_mem_findings (own : turn.checker.ReportsOwn context) {finding : Finding}
    (member : finding ∈ turn.findings context) :
    finding.ruleId = turn.checker.descriptor.id ∧
      context.severityFor? turn.checker.descriptor = some finding.severity := by
  obtain ⟨added, whole, made⟩ := (own.addsUnder_run turn.node turn.before).findings
  have makes : context.Makes turn.checker.descriptor finding := by
    rw [findings, after, whole, List.drop_left] at member
    exact made finding member
  refine ⟨makes.ruleId_eq, ?_⟩
  cases setting : context.severityFor? turn.checker.descriptor with
  | none =>
      rw [findings, after_of_off setting, List.drop_length] at member
      exact absurd member List.not_mem_nil
  | some severity => rw [makes.severity_eq, setting, Option.getD_some]

/-- A failure that is added in a turn has the id of the rule, which is on. -/
theorem of_mem_failures (own : turn.checker.ReportsOwn context) {failure : Failure}
    (member : failure ∈ turn.failures context) :
    failure.ruleId = turn.checker.descriptor.id ∧
      ∃ severity, context.severityFor? turn.checker.descriptor = some severity := by
  obtain ⟨added, whole, ids⟩ := (own.addsUnder_run turn.node turn.before).failures
  constructor
  · rw [failures, after, whole, List.drop_left] at member
    exact ids failure member
  · refine Option.ne_none_iff_exists'.mp fun off => ?_
    rw [failures, after_of_off off, List.drop_length] at member
    exact List.not_mem_nil member

end Turn

/-! ### All turns -/

namespace Checker

variable {context : Context} {node : Node}

theorem turns_cons (checker : Checker) (checkers : List Checker) (progress : Progress) :
    turns context node progress (checker :: checkers) = ⟨node, checker, progress⟩ ::
      if (checker.run context node progress).1 = .stopped then []
      else turns context node (checker.run context node progress).2 checkers := by
  rw [turns]
  rcases checker.run context node progress with ⟨flow, reached⟩
  cases flow <;> rfl

theorem of_mem_turns {checkers : List Checker} {progress : Progress} {turn : Turn}
    (member : turn ∈ turns context node progress checkers) :
    turn.node = node ∧ turn.checker ∈ checkers := by
  induction checkers generalizing progress with
  | nil => exact absurd member List.not_mem_nil
  | cons checker checkers ih =>
      rw [turns_cons] at member
      rcases List.mem_cons.mp member with rfl | later
      · exact ⟨rfl, List.mem_cons_self⟩
      · split at later
        · exact absurd later List.not_mem_nil
        · obtain ⟨here, listed⟩ := ih later
          exact ⟨here, List.mem_cons_of_mem _ listed⟩

/-- A run of checkers adds what is added in the turns. -/
theorem reported_runAll {checkers : List Checker}
    (own : ∀ checker ∈ checkers, checker.ReportsOwn context) (progress : Progress) :
    (runAll context node progress checkers).2.reporter.findings = progress.reporter.findings ++
        (turns context node progress checkers).flatMap (Turn.findings context) ∧
      (runAll context node progress checkers).2.reporter.failures = progress.reporter.failures ++
        (turns context node progress checkers).flatMap (Turn.failures context) := by
  induction checkers generalizing progress with
  | nil => exact ⟨(List.append_nil _).symm, (List.append_nil _).symm⟩
  | cons checker checkers ih =>
      have others := ih fun other member => own other (List.mem_cons_of_mem _ member)
      have mine : Turn.checker ⟨node, checker, progress⟩ |>.ReportsOwn context :=
        own checker List.mem_cons_self
      have findings := Turn.findings_after mine
      have failures := Turn.failures_after mine
      rw [Turn.after] at findings failures
      rw [runAll_cons, turns_cons]
      revert findings failures
      dsimp only
      rcases checker.run context node progress with ⟨flow, reached⟩
      intro findings failures
      cases flow with
      | stopped => simpa [Flow.andThen] using ⟨findings, failures⟩
      | goesOn =>
          obtain ⟨rest, restToo⟩ := others reached
          dsimp only at findings failures
          simp [Flow.andThen, rest, restToo, findings, failures]

end Checker

namespace Engine

variable {engine : Engine} {context : Context}

theorem turns_cons (engine : Engine) (context : Context) (progress : Progress) (node : Node)
    (nodes : List Node) : engine.turns context progress (node :: nodes) =
      if progress.look.signal.raised then []
      else
        Checker.turns context node progress.look (engine.registry.checkersFor (.node node.kind)) ++
          if (engine.registry.dispatch context node progress.look).1 = .stopped then []
          else engine.turns context (engine.registry.dispatch context node progress.look).2 nodes
      := by
  rw [turns]
  rcases engine.registry.dispatch context node progress.look with ⟨flow, reached⟩
  cases flow <;> rfl

/-- In a turn a node is given to a checker of its kind. -/
theorem of_mem_turns {nodes : List Node} {progress : Progress} {turn : Turn}
    (member : turn ∈ engine.turns context progress nodes) :
    turn.node ∈ nodes ∧ turn.checker ∈ engine.registry.checkersFor (.node turn.node.kind) := by
  induction nodes generalizing progress with
  | nil => exact absurd member List.not_mem_nil
  | cons node nodes ih =>
      rw [turns_cons] at member
      split at member
      · exact absurd member List.not_mem_nil
      · rcases List.mem_append.mp member with here | later
        · obtain ⟨rfl, listed⟩ := Checker.of_mem_turns here
          exact ⟨List.mem_cons_self, listed⟩
        · split at later
          · exact absurd later List.not_mem_nil
          · obtain ⟨below, listed⟩ := ih later
            exact ⟨List.mem_cons_of_mem _ below, listed⟩

/-- A traversal adds what is added in its turns. -/
theorem reported_traverse
    (own : ∀ kind, ∀ checker ∈ engine.registry.checkersFor kind, checker.ReportsOwn context)
    (nodes : List Node) (progress : Progress) :
    (engine.traverse context progress nodes).2.reporter.findings = progress.reporter.findings ++
        (engine.turns context progress nodes).flatMap (Turn.findings context) ∧
      (engine.traverse context progress nodes).2.reporter.failures = progress.reporter.failures ++
        (engine.turns context progress nodes).flatMap (Turn.failures context) := by
  induction nodes generalizing progress with
  | nil => exact ⟨(List.append_nil _).symm, (List.append_nil _).symm⟩
  | cons node nodes ih =>
      rw [traverse_cons, turns_cons]
      split
      · exact ⟨(List.append_nil _).symm, (List.append_nil _).symm⟩
      · obtain ⟨findings, failures⟩ := @Checker.reported_runAll context node _
          (own (.node node.kind)) progress.look
        change (engine.registry.dispatch context node progress.look).2.reporter.findings = _
          at findings
        change (engine.registry.dispatch context node progress.look).2.reporter.failures = _
          at failures
        revert findings failures
        rcases engine.registry.dispatch context node progress.look with ⟨flow, reached⟩
        intro findings failures
        cases flow with
        | stopped => simpa [Flow.andThen] using ⟨findings, failures⟩
        | goesOn =>
            obtain ⟨rest, restToo⟩ := ih reached
            dsimp only at findings failures
            have unchanged : progress.look.reporter = progress.reporter := rfl
            simp [Flow.andThen, rest, restToo, findings, failures, unchanged]

/-- **Findings name a rule that is registered and on.** Whatever steps a registry came about by, it
has one description for each id, in the order in which the ids were first registered and each of
them the first with its id; these are the ids of all its checkers, and the checkers of a kind are
those registered for it, in order and as often. Let the checkers report under their own rules. Then
everything in the outcome of a pass, stopped or not, has been added in the turns of the pass, in
which the nodes of the unit are given to the checkers of their kinds. What is added in a turn names
the rule of the checker, which is a rule of the registry and on in the settings, and a finding has
exactly the severity that the settings give to the checker's own description. -/
theorem findings_attributed (steps : List RegistryStep) :
    (((Registry.ofSteps steps).descriptors.map (·.id)).Nodup ∧
      ((Registry.ofSteps steps).descriptors.Pairwise fun first second =>
        Registry.firstIndex (steps.flatMap (·.registered)) first.id <
          Registry.firstIndex (steps.flatMap (·.registered)) second.id) ∧
      (∀ ruleId, (Registry.ofSteps steps).descriptor? ruleId =
        (steps.flatMap (·.registered)).find? (·.id = ruleId)) ∧
      (∀ kind, ∀ checker ∈ (Registry.ofSteps steps).checkersFor kind,
        ∃ rule ∈ (Registry.ofSteps steps).descriptors, rule.id = checker.descriptor.id) ∧
      ∀ kind, (Registry.ofSteps steps).checkersFor kind = steps.flatMap (·.added kind)) ∧
    ∀ (settings : AnalysisUnit → Settings) (unit : AnalysisUnit) (signal : Signal),
      (∀ step ∈ steps, step.checker.ReportsOwn ⟨unit, settings unit⟩) →
      let engine := Engine.mk (.ofSteps steps) settings
      let context := Context.mk unit (settings unit)
      let turns := engine.turns context (.start signal true) unit.tree.root.descendants
      Finding.Lists (turns.flatMap (Turn.findings context))
          (engine.analyze unit signal).1.findings ∧
        (engine.analyze unit signal).1.failures = turns.flatMap (Turn.failures context) ∧
        ∀ turn ∈ turns, turn.node ∈ unit.tree.root.descendants ∧
          turn.checker ∈ steps.flatMap (·.added (.node turn.node.kind)) ∧
          (∃ rule ∈ engine.registry.descriptors, rule.id = turn.checker.descriptor.id) ∧
          (∀ finding ∈ turn.findings context, finding.ruleId = turn.checker.descriptor.id ∧
            (settings unit).severityFor? turn.checker.descriptor = some finding.severity) ∧
          ∀ failure ∈ turn.failures context, failure.ruleId = turn.checker.descriptor.id ∧
            ∃ severity, (settings unit).severityFor? turn.checker.descriptor = some severity := by
  refine ⟨⟨Registry.nodup_ids steps, Registry.pairwise_firstIndex_descriptors steps,
    Registry.descriptor?_ofSteps steps, fun _ _ => Registry.exists_descriptor_of_checker,
    Registry.checkersFor_ofSteps steps⟩, ?_⟩
  intro settings unit signal own engine context turns
  have registered : ∀ kind, ∀ checker ∈ engine.registry.checkersFor kind,
      checker.ReportsOwn context := by
    intro kind checker member
    rw [Registry.checkersFor_ofSteps] at member
    obtain ⟨step, listed, added⟩ := List.mem_flatMap.mp member
    rw [RegistryStep.eq_of_mem_added added]
    exact own step listed
  obtain ⟨findings, failures⟩ := reported_traverse registered unit.tree.root.descendants
    (.start signal true)
  refine ⟨?_, failures, fun turn member => ?_⟩
  · rw [analyze_findings]
    change Finding.Lists _ (Finding.sorted (engine.traverse context _ _).2.reporter.findings)
    rw [findings]
    exact Finding.sorted_lists _
  · obtain ⟨below, listed⟩ := of_mem_turns member
    have mine := registered _ turn.checker listed
    refine ⟨below, ?_, Registry.exists_descriptor_of_checker listed,
      fun finding => Turn.of_mem_findings mine, fun failure => Turn.of_mem_failures mine⟩
    rw [← Registry.checkersFor_ofSteps]
    exact listed

/-- Three checkers of one id: two report with severities of their own, and the rule of the third is
off. The second also fails, and a last checker raises the signal. -/
def sharing : List RegistryStep := [
  .registerChecker <| Script.checker (plainRule "style/shared") [.node .compilationUnit]
    [.report [] .empty],
  .register (.node .compilationUnit) <|
    Script.checker { plainRule "style/shared" with defaultSeverity := .error } []
      [.report [] .empty, .fail (.rule "style/shared" "no luck")],
  .register (.node .compilationUnit) <|
    Script.checker { plainRule "style/shared" with enabledByDefault := false } []
      [.report [] .empty],
  .registerChecker <| Script.checker (plainRule "style/last") [.node .compilationUnit, .node .block]
    [.raise, .report [] .empty]]

/-- A file with a block, to which a stopped pass does not come. -/
def blockFile : AnalysisUnit :=
  .withoutSemantics "Block.cs" ⟨.compilationUnit, [.node .block []]⟩

theorem findings_attributed_sharing :
    (∀ step ∈ sharing, step.checker.ReportsOwn ⟨blockFile, .default⟩) ∧
    let outcome := ((Engine.mk (.ofSteps sharing) fun _ => .default).analyze blockFile .quiet).1
    outcome.cancelled = true ∧ outcome.findings.map (·.severity) = [.info, .error] ∧
      outcome.failures.length = 1 ∧
      ∀ finding ∈ outcome.findings, ∃ step ∈ sharing,
        finding.ruleId = step.checker.descriptor.id ∧
          Settings.default.severityFor? step.checker.descriptor = some finding.severity := by
  have own : ∀ step ∈ sharing, step.checker.ReportsOwn ⟨blockFile, .default⟩ := by
    simp only [sharing, List.forall_mem_cons]
    exact ⟨Script.reportsOwn _ _ _ _, Script.reportsOwn _ _ _ _, Script.reportsOwn _ _ _ _,
      Script.reportsOwn _ _ _ _, by simp⟩
  obtain ⟨-, passes⟩ := findings_attributed sharing
  obtain ⟨listed, -, turns⟩ := passes (fun _ => .default) blockFile .quiet own
  refine ⟨own, by decide, by decide, by decide, fun finding member => ?_⟩
  obtain ⟨turn, taken, added⟩ := List.mem_flatMap.mp (listed.perm.mem_iff.mp member)
  obtain ⟨-, registered, -, attributed, -⟩ := turns turn taken
  obtain ⟨step, among, given⟩ := List.mem_flatMap.mp registered
  rw [RegistryStep.eq_of_mem_added given] at attributed
  exact ⟨step, among, attributed finding added⟩

end Engine

end TreeLint
