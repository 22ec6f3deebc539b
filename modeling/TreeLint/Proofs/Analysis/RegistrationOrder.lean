import Mathlib.Data.List.Perm.Basic
import TreeLint.Proofs.Analysis.Isolation

/-!
# The order of registrations

Let different checkers be of different rules, let what each of them does with a node be settled by
the node and the context, and let none of them ask to stop. Then the order in which they were
registered shows in the order of the reports only: the findings of one rule at one offset come from
one checker, whose calls are the same in every order, so that the list of findings is the same
(`TreeLint.Engine.outcome_of_reordered`). A request to stop keeps the checkers behind it from being
called, so that the order shows (`TreeLint.Engine.not_forall_orders_agree`).
-/

namespace TreeLint

namespace Checker

/-- What a checker does with a node of an undisturbed pass is settled by the context and the node:
it reports the same findings, all of its own rule, and comes to the same end. -/
def Settled (checker : Checker) (context : Context) : Prop :=
  ∀ node, ∃ findings result, (∀ found ∈ findings, found.ruleId = checker.descriptor.id) ∧
    ∀ progress : Progress, progress.signal = .quiet →
      checker.check context node progress = (result, progress.pushAll findings)

/-- No check by a checker asks an undisturbed pass to stop. -/
def NeverStops (checker : Checker) (context : Context) : Prop :=
  ∀ node (progress : Progress), progress.signal = .quiet →
    (checker.check context node progress).1.isCancelled = false

theorem Settled.concludes {checker : Checker} {context : Context}
    (settled : checker.Settled context) (neverStops : checker.NeverStops context) :
    checker.Concludes context := by
  intro node progress quiet
  obtain ⟨findings, result, -, check⟩ := settled node
  have ends := neverStops node progress quiet
  rw [check progress quiet] at ends
  exact ⟨findings, result, ends, check progress quiet⟩

end Checker

namespace Call

variable {context : Context}

/-- A call is what its checker always does with its node, and reports under the rule of the
checker. -/
structure IsSettled (context : Context) (call : Call) : Prop where
  only : ∀ (other : Call) (earlier : List Call), other.Follows context earlier →
    other.node = call.node → other.checker = call.checker → other = call
  own : ∀ found ∈ call.findings, found.ruleId = call.checker.descriptor.id

theorem exists_settled {checker : Checker} (settled : checker.Settled context) (node : Node) :
    ∃ call : Call, call.node = node ∧ call.checker = checker ∧ call.IsSettled context := by
  obtain ⟨findings, result, own, check⟩ := settled node
  refine ⟨⟨node, checker, findings, result⟩, rfl, rfl, ?_, own⟩
  rintro ⟨_, _, reported, ending⟩ earlier follows rfl rfl
  have same := (check (progress earlier) rfl).symm.trans follows.check
  rw [Progress.pushAll_of_quiet rfl, Progress.pushAll_of_quiet rfl] at same
  obtain ⟨results, progresses⟩ := Prod.mk.inj same
  have findings := List.append_cancel_left (congrArg (·.reporter.findings) progresses)
  dsimp only at results findings
  rw [results, findings]

/-- For each checker that is settled and each node there is one call that the checker makes. -/
theorem exists_made (context : Context) : ∃ made : Node × Checker → Call, ∀ node checker,
    checker.Settled context → (made (node, checker)).node = node ∧
      (made (node, checker)).checker = checker ∧ (made (node, checker)).IsSettled context := by
  have some (due : Node × Checker) : ∃ call : Call, due.2.Settled context →
      call.node = due.1 ∧ call.checker = due.2 ∧ call.IsSettled context := by
    by_cases settled : due.2.Settled context
    · obtain ⟨call, whole⟩ := exists_settled settled due.1
      exact ⟨call, fun _ => whole⟩
    · exact ⟨⟨due.1, due.2, [], .done⟩, fun also => absurd also settled⟩
  obtain ⟨made, spec⟩ := Classical.axiomOfChoice some
  exact ⟨made, fun node checker => spec (node, checker)⟩

end Call

/-- What is due at a node comes from a registration. -/
theorem Checker.exists_registration_of_due {steps : List RegistryStep} {kind : Kind}
    {context : Context} {node : Node} {pair : Node × Checker}
    (member : pair ∈ due context node (steps.flatMap (·.added kind))) :
    pair.1 = node ∧ ∃ registration ∈ Registration.ofSteps steps,
      registration.checker = pair.2 := by
  obtain ⟨checker, listed, rfl⟩ := List.mem_map.mp member
  have added := (List.mem_filter.mp listed).1
  rw [flatMap_added] at added
  obtain ⟨registration, chosen, same⟩ := List.mem_map.mp added
  exact ⟨rfl, registration, (List.mem_filter.mp chosen).1, same⟩

/-- Registrations in another order make the same calls due at a node, in another order. -/
theorem Checker.due_perm {first second : List RegistryStep}
    (same : (Registration.ofSteps first).Perm (Registration.ofSteps second)) (context : Context)
    (node : Node) (kind : Kind) : (due context node (first.flatMap (·.added kind))).Perm
      (due context node (second.flatMap (·.added kind))) := by
  rw [flatMap_added, flatMap_added]
  exact (((same.filter _).map _).filter _).map _

/-- The order of items does not show in what they contribute if all that contribute something are
the same. -/
theorem flatMap_eq_of_perm {α β : Type} {first second : List α} (same : first.Perm second)
    {part : α → List β}
    (alone : ∀ one ∈ first, ∀ other ∈ first, part one ≠ [] → part other ≠ [] → one = other) :
    first.flatMap part = second.flatMap part := by
  induction same with
  | nil => rfl
  | cons item same ih =>
      rw [List.flatMap_cons, List.flatMap_cons, ih fun one member other memberToo =>
        alone one (List.mem_cons_of_mem _ member) other (List.mem_cons_of_mem _ memberToo)]
  | swap one other rest =>
      simp only [List.flatMap_cons]
      by_cases nothing : part one = []
      · simp only [nothing, List.nil_append]
      by_cases nothingToo : part other = []
      · simp only [nothingToo, List.nil_append]
      · rw [alone one (List.mem_cons_of_mem _ List.mem_cons_self) other List.mem_cons_self nothing
          nothingToo]
  | trans former latter ihFormer ihLatter =>
      rw [ihFormer alone]
      refine ihLatter fun one member other memberToo => ?_
      exact alone one (former.mem_iff.mpr member) other (former.mem_iff.mpr memberToo)

namespace Engine

variable {unit : AnalysisUnit} {settings : AnalysisUnit → Settings}

/-- An undisturbed pass of settled checkers that do not ask to stop makes the calls that are due. -/
theorem pass_of_settled {steps : List RegistryStep} {made : Node × Checker → Call}
    (settled : ∀ registration ∈ Registration.ofSteps steps,
      registration.checker.Settled ⟨unit, settings unit⟩)
    (neverStops : ∀ registration ∈ Registration.ofSteps steps,
      registration.checker.NeverStops ⟨unit, settings unit⟩)
    (spec : ∀ node checker, checker.Settled ⟨unit, settings unit⟩ →
      (made (node, checker)).node = node ∧ (made (node, checker)).checker = checker ∧
        (made (node, checker)).IsSettled ⟨unit, settings unit⟩) :
    (Engine.mk (.ofSteps steps) settings).pass unit .quiet =
      (.goesOn, Call.progress ((due steps ⟨unit, settings unit⟩).map made)) := by
  have concludes (kind : Kind) (checker : Checker)
      (member : checker ∈ (Registry.ofSteps steps).checkersFor kind) :
      checker.Concludes ⟨unit, settings unit⟩ := by
    rw [Registry.checkersFor_ofSteps, flatMap_added] at member
    obtain ⟨registration, chosen, rfl⟩ := List.mem_map.mp member
    have listed := (List.mem_filter.mp chosen).1
    exact (settled registration listed).concludes (neverStops registration listed)
  obtain ⟨calls, named, follow, ran⟩ := (Engine.mk (.ofSteps steps) settings).exists_calls_traverse
    concludes unit.tree.root.descendants []
  have named : calls.map (fun call => (call.node, call.checker)) =
      due steps ⟨unit, settings unit⟩ := by
    rw [named, due]
    simp only [Registry.checkersFor_ofSteps]
  have each (call : Call) (member : call ∈ calls) : made (call.node, call.checker) = call := by
    obtain ⟨before, after, split⟩ := List.append_of_mem member
    rw [split] at follow
    have listed := List.mem_map_of_mem (f := fun call : Call => (call.node, call.checker)) member
    rw [named] at listed
    obtain ⟨node, -, listed⟩ := List.mem_flatMap.mp listed
    obtain ⟨-, registration, listed, same⟩ := Checker.exists_registration_of_due listed
    have known := settled registration listed
    rw [same] at known
    obtain ⟨nodes, checkers, only, -⟩ := spec call.node call.checker known
    exact (only call _ follow.follows nodes.symm checkers.symm).symm
  have whole : calls = (due steps ⟨unit, settings unit⟩).map made := by
    rw [← named, List.map_map]
    exact ((List.map_congr_left each).trans (List.map_id calls)).symm
  rw [← whole]
  exact ran

/-- The findings of a rule at an offset are reported in the same order. -/
theorem filter_reported {first second : List RegistryStep} {context : Context}
    {made : Node × Checker → Call}
    (same : (Registration.ofSteps first).Perm (Registration.ofSteps second))
    (distinct : ∀ one ∈ Registration.ofSteps first, ∀ other ∈ Registration.ofSteps first,
      one.checker.descriptor.id = other.checker.descriptor.id → one.checker = other.checker)
    (own : ∀ registration ∈ Registration.ofSteps first, ∀ node,
      ∀ found ∈ (made (node, registration.checker)).findings,
        found.ruleId = registration.checker.descriptor.id)
    (offset : Nat) (ruleId : String) :
    (((due first context).map made).flatMap (·.findings)).filter (Finding.isAt offset ruleId) =
      (((due second context).map made).flatMap (·.findings)).filter
        (Finding.isAt offset ruleId) := by
  unfold due
  rw [List.flatMap_map, List.flatMap_map, List.filter_flatMap, List.filter_flatMap,
    List.flatMap_assoc, List.flatMap_assoc]
  refine congrArg (List.flatMap · context.unit.tree.root.descendants) (funext fun node => ?_)
  refine flatMap_eq_of_perm (Checker.due_perm same context node (.node node.kind)) ?_
  -- Two calls at the node that both report something of the rule are calls of its only checker.
  have rule {pair : Node × Checker}
      (member : pair ∈ Checker.due context node (first.flatMap (·.added (.node node.kind))))
      (some : (made pair).findings.filter (Finding.isAt offset ruleId) ≠ []) :
      pair.1 = node ∧ ∃ registration ∈ Registration.ofSteps first,
        registration.checker = pair.2 ∧ registration.checker.descriptor.id = ruleId := by
    obtain ⟨nodes, registration, listed, checker⟩ := Checker.exists_registration_of_due member
    obtain ⟨found, chosen⟩ := List.exists_mem_of_ne_nil _ some
    obtain ⟨reported, here⟩ := List.mem_filter.mp chosen
    refine ⟨nodes, registration, listed, checker, ?_⟩
    rw [Finding.isAt, Bool.and_eq_true, decide_eq_true_eq, decide_eq_true_eq] at here
    rw [← here.2]
    refine (own registration listed pair.1 found ?_).symm
    rw [checker]
    exact reported
  intro one member other memberToo some someToo
  obtain ⟨nodes, registration, listed, checker, id⟩ := rule member some
  obtain ⟨nodesToo, registrationToo, listedToo, checkerToo, idToo⟩ := rule memberToo someToo
  refine Prod.ext (nodes.trans nodesToo.symm) ?_
  rw [← checker, ← checkerToo]
  exact distinct registration listed registrationToo listedToo (id.trans idToo.symm)

/-- **The order of registrations does not show.** Let two histories of a registry register the same
in different orders, where different checkers are of different rules, what each of them does with a
node of the unit is settled, and none of them asks to stop. Then neither of the undisturbed passes
is stopped, they list the same findings in the same order, and they have the same failures, each as
often. -/
theorem outcome_of_reordered (first second : List RegistryStep)
    (settings : AnalysisUnit → Settings) (unit : AnalysisUnit)
    (same : (Registration.ofSteps first).Perm (Registration.ofSteps second))
    (distinct : ∀ one ∈ Registration.ofSteps first, ∀ other ∈ Registration.ofSteps first,
      one.checker.descriptor.id = other.checker.descriptor.id → one.checker = other.checker)
    (settled : ∀ registration ∈ Registration.ofSteps first,
      registration.checker.Settled ⟨unit, settings unit⟩)
    (neverStops : ∀ registration ∈ Registration.ofSteps first,
      registration.checker.NeverStops ⟨unit, settings unit⟩) :
    ((Engine.mk (.ofSteps first) settings).analyze unit .quiet).1.cancelled = false ∧
    ((Engine.mk (.ofSteps second) settings).analyze unit .quiet).1.cancelled = false ∧
    ((Engine.mk (.ofSteps first) settings).analyze unit .quiet).1.findings =
      ((Engine.mk (.ofSteps second) settings).analyze unit .quiet).1.findings ∧
    ((Engine.mk (.ofSteps first) settings).analyze unit .quiet).1.failures.Perm
      ((Engine.mk (.ofSteps second) settings).analyze unit .quiet).1.failures := by
  obtain ⟨made, spec⟩ := Call.exists_made ⟨unit, settings unit⟩
  have passed := pass_of_settled settled neverStops spec
  have passedToo := pass_of_settled
    (fun registration member => settled registration (same.mem_iff.mpr member))
    (fun registration member => neverStops registration (same.mem_iff.mpr member)) spec
  have own (registration : Registration) (member : registration ∈ Registration.ofSteps first)
      (node : Node) : ∀ found ∈ (made (node, registration.checker)).findings,
        found.ruleId = registration.checker.descriptor.id := by
    obtain ⟨-, checker, call⟩ := spec node registration.checker (settled registration member)
    intro found reported
    rw [← checker]
    exact call.own found reported
  refine ⟨?_, ?_, ?_, ?_⟩
  · rw [analyze_not_cancelled_iff, passed]
  · rw [analyze_not_cancelled_iff, passedToo]
  · rw [analyze_findings, analyze_findings, passed, passedToo]
    exact Finding.sorted_eq_of_filters (filter_reported same distinct own)
  · change ((Engine.mk _ settings).pass unit .quiet).2.reporter.failures.Perm
      ((Engine.mk _ settings).pass unit .quiet).2.reporter.failures
    rw [passed, passedToo]
    have calls := List.Perm.flatMap_left unit.tree.root.descendants fun node _ =>
      Checker.due_perm same ⟨unit, settings unit⟩ node (.node node.kind)
    exact (calls.map made).filterMap Call.failure?

/-- A checker that reports twice at its node. -/
def chatty : Checker :=
  Script.checker (plainRule "style/chatty") [.node .compilationUnit, .node .block]
    [.report [.literal "once"] .empty, .report [.nodeKind] .empty]

/-- A checker that reports at its node and then fails. -/
def failing : Checker :=
  Script.checker (plainRule "style/failing") [.node .block, .node .compilationUnit]
    [.report [] .empty, .fail (.rule "style/failing" "no luck")]

theorem chatty_settled (context : Context) : chatty.Settled context := by
  intro node
  let report (args : List String) : Finding :=
    (context.finding (plainRule "style/chatty") node.span args).withProperties .empty
  refine ⟨[report ["once"], report [node.kind.name]], .done, ?_, fun _ _ => rfl⟩
  simp only [List.mem_cons, List.not_mem_nil, or_false, forall_eq_or_imp, forall_eq]
  exact ⟨rfl, rfl⟩

theorem failing_settled (context : Context) : failing.Settled context := by
  intro node
  let report : Finding :=
    (context.finding (plainRule "style/failing") node.span []).withProperties .empty
  refine ⟨[report], .failed (.rule "style/failing" "no luck"), ?_, fun _ _ => rfl⟩
  simp only [List.mem_cons, List.not_mem_nil, or_false, forall_eq]
  rfl

/-- The chatty checker is registered twice, and then the failing one. -/
def failingLast : List RegistryStep :=
  [.registerChecker chatty, .registerChecker chatty, .registerChecker failing]

/-- The failing checker is registered between the two registrations of the chatty one. -/
def failingBetween : List RegistryStep :=
  [.registerChecker chatty, .registerChecker failing, .registerChecker chatty]

theorem failingLast_perm :
    (Registration.ofSteps failingLast).Perm (Registration.ofSteps failingBetween) :=
  List.Perm.flatMap_right _ (.cons _ (.swap _ _ _))

theorem checker_of_failingLast {registration : Registration}
    (member : registration ∈ Registration.ofSteps failingLast) :
    registration.checker = chatty ∨ registration.checker = failing := by
  obtain ⟨step, listed, same⟩ := Registration.exists_step member
  simp only [failingLast, List.mem_cons, List.not_mem_nil, or_false] at listed
  rcases listed with rfl | rfl | rfl
  · exact .inl same
  · exact .inl same
  · exact .inr same

/-- Of two checkers with different ids, those with the same id are the same. -/
theorem eq_of_ids {first second one other : Checker}
    (differ : first.descriptor.id ≠ second.descriptor.id) (either : one = first ∨ one = second)
    (eitherToo : other = first ∨ other = second) (ids : one.descriptor.id = other.descriptor.id) :
    one = other := by
  rcases either with rfl | rfl
  · rcases eitherToo with rfl | rfl
    · rfl
    · exact absurd ids differ
  · rcases eitherToo with rfl | rfl
    · exact absurd ids.symm differ
    · rfl

/-- A file with two nodes that start at its beginning. -/
def nestedFile : AnalysisUnit :=
  .withoutSemantics "Nested.cs" ⟨.compilationUnit, [.node .block []]⟩

/-- All findings stand at one offset: eight of the chatty checker, two at each of its calls, and two
of the failing one, which fails at both nodes. -/
theorem outcome_of_reordered_nestedFile :
    let last := (Engine.mk (.ofSteps failingLast) fun _ => .default).analyze nestedFile .quiet
    let between := (Engine.mk (.ofSteps failingBetween) fun _ => .default).analyze nestedFile .quiet
    last.1.findings = between.1.findings ∧ last.1.findings.length = 10 ∧
      last.1.failures.Perm between.1.failures ∧ last.1.failures.length = 2 := by
  have distinct : ∀ one ∈ Registration.ofSteps failingLast,
      ∀ other ∈ Registration.ofSteps failingLast,
      one.checker.descriptor.id = other.checker.descriptor.id → one.checker = other.checker :=
    fun one member other memberToo => eq_of_ids (by decide) (checker_of_failingLast member)
      (checker_of_failingLast memberToo)
  have settled : ∀ registration ∈ Registration.ofSteps failingLast,
      registration.checker.Settled ⟨nestedFile, .default⟩ := by
    intro registration member
    rcases checker_of_failingLast member with same | same
    · rw [same]
      exact chatty_settled _
    · rw [same]
      exact failing_settled _
  have neverStops : ∀ registration ∈ Registration.ofSteps failingLast,
      registration.checker.NeverStops ⟨nestedFile, .default⟩ := by
    intro registration member node progress _
    rcases checker_of_failingLast member with same | same
    · rw [same]
      rfl
    · rw [same]
      rfl
  obtain ⟨-, -, findings, failures⟩ := outcome_of_reordered _ _ (fun _ => .default) nestedFile
    failingLast_perm distinct settled neverStops
  exact ⟨findings, by decide, failures, by decide⟩

/-! ### A request to stop -/

/-- A checker that asks to stop, whatever the signal. -/
def stopping : Checker :=
  Script.checker (plainRule "style/stop") [.node .compilationUnit] [.fail .cancelled]

def saying : Checker :=
  Script.checker (plainRule "style/say") [.node .compilationUnit] [.report [] .empty]

theorem stopping_settled (context : Context) : stopping.Settled context :=
  fun _ => ⟨[], .failed .cancelled, fun _ member => absurd member List.not_mem_nil, fun _ _ => rfl⟩

theorem saying_settled (context : Context) : saying.Settled context := by
  intro node
  let report : Finding :=
    (context.finding (plainRule "style/say") node.span []).withProperties .empty
  refine ⟨[report], .done, ?_, fun _ _ => rfl⟩
  simp only [List.mem_cons, List.not_mem_nil, or_false, forall_eq]
  rfl

/-- The checker that asks to stop is registered before the other one. -/
def stoppingFirst : List RegistryStep :=
  [.registerChecker stopping, .registerChecker saying]

theorem checker_of_stoppingFirst {registration : Registration}
    (member : registration ∈ Registration.ofSteps stoppingFirst) :
    registration.checker = stopping ∨ registration.checker = saying := by
  obtain ⟨step, listed, same⟩ := Registration.exists_step member
  simp only [stoppingFirst, List.mem_cons, List.not_mem_nil, or_false] at listed
  rcases listed with rfl | rfl
  · exact .inl same
  · exact .inr same

/-- The order shows when a checker asks to stop: what is registered behind it is not called, and
what is registered in front of it is. -/
theorem not_forall_orders_agree : ¬ ∀ (first second : List RegistryStep)
    (settings : AnalysisUnit → Settings) (unit : AnalysisUnit),
    (Registration.ofSteps first).Perm (Registration.ofSteps second) →
    (∀ one ∈ Registration.ofSteps first, ∀ other ∈ Registration.ofSteps first,
      one.checker.descriptor.id = other.checker.descriptor.id → one.checker = other.checker) →
    (∀ registration ∈ Registration.ofSteps first,
      registration.checker.Settled ⟨unit, settings unit⟩) →
    ((Engine.mk (.ofSteps first) settings).analyze unit .quiet).1.findings =
      ((Engine.mk (.ofSteps second) settings).analyze unit .quiet).1.findings ∧
    ((Engine.mk (.ofSteps first) settings).analyze unit .quiet).1.failures.Perm
      ((Engine.mk (.ofSteps second) settings).analyze unit .quiet).1.failures := by
  intro agree
  have settled (registration : Registration)
      (member : registration ∈ Registration.ofSteps stoppingFirst) :
      registration.checker.Settled ⟨bareFile, .default⟩ := by
    rcases checker_of_stoppingFirst member with same | same
    · rw [same]
      exact stopping_settled _
    · rw [same]
      exact saying_settled _
  have swapped : (Registration.ofSteps stoppingFirst).Perm
      (Registration.ofSteps [.registerChecker saying, .registerChecker stopping]) :=
    List.Perm.flatMap_right _ (.swap _ _ _)
  obtain ⟨findings, -⟩ := agree stoppingFirst _ (fun _ => .default) bareFile swapped
    (fun one member other memberToo => eq_of_ids (by decide) (checker_of_stoppingFirst member)
      (checker_of_stoppingFirst memberToo)) settled
  exact absurd (congrArg List.length findings) (by decide)

end Engine

end TreeLint
