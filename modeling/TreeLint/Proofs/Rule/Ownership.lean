import TreeLint.Proofs.Pass.Progress
import TreeLint.Rule.Builtin
import TreeLint.Rule.Script

/-!
# Checkers that report under their own rule

A context makes findings for any rule, with the severity that the settings give to the rule and with
the default severity should the rule be off. A checker reports under its own rule when whatever it
adds to a reporter is a finding that the context makes for its rule, or a failure of its rule
(`TreeLint.Checker.ReportsOwn`). The built-in checkers do so (`TreeLint.Builtin.reportsOwn`), and so
do all scripts (`TreeLint.Script.reportsOwn`).
-/

namespace TreeLint

/-- A finding that a context makes for a rule: about any place, with any arguments, properties and
suggestions. -/
def Context.Makes (context : Context) (descriptor : Descriptor) (finding : Finding) : Prop :=
  ∃ span args properties suggestions,
    finding = { context.finding descriptor span args with properties, suggestions }

namespace Context.Makes

variable {context : Context} {descriptor : Descriptor} {finding : Finding}

theorem plain (span : Span) (args : List String) :
    context.Makes descriptor (context.finding descriptor span args) :=
  ⟨span, args, .empty, [], rfl⟩

theorem withProperty (makes : context.Makes descriptor finding) (key value : String) :
    context.Makes descriptor (finding.withProperty key value) := by
  obtain ⟨span, args, properties, suggestions, rfl⟩ := makes
  exact ⟨span, args, properties.insert key value, suggestions, rfl⟩

theorem withProperties (makes : context.Makes descriptor finding) (properties : Dict String) :
    context.Makes descriptor (finding.withProperties properties) := by
  obtain ⟨span, args, earlier, suggestions, rfl⟩ := makes
  exact ⟨span, args, earlier.insertAll properties.entries, suggestions, rfl⟩

theorem withSuggestion (makes : context.Makes descriptor finding) (suggestion : Suggestion) :
    context.Makes descriptor (finding.withSuggestion suggestion) := by
  obtain ⟨span, args, properties, suggestions, rfl⟩ := makes
  exact ⟨span, args, properties, suggestions ++ [suggestion], rfl⟩

theorem withSuggestions (makes : context.Makes descriptor finding)
    (suggestions : List Suggestion) :
    context.Makes descriptor (suggestions.foldl .withSuggestion finding) := by
  induction suggestions generalizing finding with
  | nil => exact makes
  | cons suggestion suggestions ih => exact ih (makes.withSuggestion suggestion)

theorem ruleId_eq (makes : context.Makes descriptor finding) :
    finding.ruleId = descriptor.id := by
  obtain ⟨span, args, properties, suggestions, rfl⟩ := makes
  rfl

/-- The severity is the one of the rule; the default counts only if the rule is off. -/
theorem severity_eq (makes : context.Makes descriptor finding) :
    finding.severity = (context.severityFor? descriptor).getD descriptor.defaultSeverity := by
  obtain ⟨span, args, properties, suggestions, rfl⟩ := makes
  rfl

end Context.Makes

/-- From one progress to another nothing is taken back, and what comes in are findings that the
context makes for a rule, and failures of this rule. -/
structure Context.AddsUnder (context : Context) (descriptor : Descriptor)
    (before after : Progress) : Prop where
  findings : ∃ added, after.reporter.findings = before.reporter.findings ++ added ∧
    ∀ finding ∈ added, context.Makes descriptor finding
  failures : ∃ added, after.reporter.failures = before.reporter.failures ++ added ∧
    ∀ failure ∈ added, failure.ruleId = descriptor.id

namespace Context.AddsUnder

variable {context : Context} {descriptor : Descriptor} {before middle after : Progress}

/-- Nothing comes in while the reporter stays as it is. -/
theorem of_reporter (same : after.reporter = before.reporter) :
    context.AddsUnder descriptor before after where
  findings := ⟨[], by simp [same]⟩
  failures := ⟨[], by simp [same]⟩

theorem refl (progress : Progress) : context.AddsUnder descriptor progress progress :=
  of_reporter rfl

theorem trans (former : context.AddsUnder descriptor before middle)
    (latter : context.AddsUnder descriptor middle after) :
    context.AddsUnder descriptor before after where
  findings := by
    obtain ⟨first, firstAdded, made⟩ := former.findings
    obtain ⟨second, secondAdded, madeToo⟩ := latter.findings
    refine ⟨first ++ second, by rw [secondAdded, firstAdded, List.append_assoc], ?_⟩
    intro finding member
    exact (List.mem_append.mp member).elim (made finding) (madeToo finding)
  failures := by
    obtain ⟨first, firstAdded, own⟩ := former.failures
    obtain ⟨second, secondAdded, ownToo⟩ := latter.failures
    refine ⟨first ++ second, by rw [secondAdded, firstAdded, List.append_assoc], ?_⟩
    intro failure member
    exact (List.mem_append.mp member).elim (own failure) (ownToo failure)

theorem push (progress : Progress) {finding : Finding}
    (makes : context.Makes descriptor finding) :
    context.AddsUnder descriptor progress (progress.push finding) := by
  rw [Progress.push]
  split
  · exact of_reporter rfl
  · exact ⟨⟨[finding], rfl, by simpa using makes⟩, [], (List.append_nil _).symm, by simp⟩

theorem pushAll (progress : Progress) {findings : List Finding}
    (makes : ∀ finding ∈ findings, context.Makes descriptor finding) :
    context.AddsUnder descriptor progress (progress.pushAll findings) := by
  induction findings generalizing progress with
  | nil => exact refl progress
  | cons finding findings ih =>
      have first := push progress (makes finding List.mem_cons_self)
      exact first.trans (ih _ fun other member => makes other (List.mem_cons_of_mem _ member))

theorem recordFailure (progress : Progress) {failure : Failure}
    (own : failure.ruleId = descriptor.id) :
    context.AddsUnder descriptor progress (progress.recordFailure failure) :=
  ⟨⟨[], (List.append_nil _).symm, by simp⟩, [failure], rfl, by simpa using own⟩

end Context.AddsUnder

/-- Whatever the checker adds to a reporter, it adds under its own rule. -/
def Checker.ReportsOwn (checker : Checker) (context : Context) : Prop :=
  ∀ node progress,
    context.AddsUnder checker.descriptor progress (checker.check context node progress).2

theorem Checker.ReportsOwn.ofFindings {descriptor : Descriptor} {kinds : List Kind}
    {findings : Context → Node → List Finding} {context : Context}
    (makes : ∀ node, ∀ finding ∈ findings context node, context.Makes descriptor finding) :
    (Checker.ofFindings descriptor kinds findings).ReportsOwn context :=
  fun node progress => .pushAll progress (makes node)

/-! ### Built-in checkers -/

namespace Casing

variable {context : Context}

theorem makes_of_writtenFinding? {token : Token} {found : Finding}
    (written : writtenFinding? context token = some found) :
    context.Makes descriptor found := by
  obtain ⟨fixed, -, rfl⟩ := Option.map_eq_some_iff.mp written
  exact ((Context.Makes.plain _ _).withProperty _ _).withSuggestion _

theorem makes_of_inferredFinding? {expression : Node} {found : Finding}
    (inferred : inferredFinding? context expression = some found) :
    context.Makes descriptor found := by
  obtain ⟨name, -, rest⟩ := Option.bind_eq_some_iff.mp inferred
  obtain ⟨fixed, -, rest⟩ := Option.bind_eq_some_iff.mp rest
  cases rest
  exact .plain _ _

theorem makes_of_mem_findings {node : Node} :
    ∀ found ∈ findings context node, context.Makes descriptor found := by
  intro found member
  unfold findings at member
  split at member
  · obtain ⟨element, -, reported⟩ := List.mem_filterMap.mp member
    unfold elementFinding? at reported
    split at reported
    · obtain ⟨token, -, written⟩ := Option.bind_eq_some_iff.mp reported
      exact makes_of_writtenFinding? written
    · cases reported
  · split at member
    · obtain ⟨argument, -, reported⟩ := List.mem_filterMap.mp member
      unfold argumentFinding? at reported
      split at reported <;> split at reported
      · obtain ⟨token, -, written⟩ := Option.bind_eq_some_iff.mp reported
        exact makes_of_writtenFinding? written
      · cases reported
      · obtain ⟨expression, -, inferred⟩ := Option.bind_eq_some_iff.mp reported
        exact makes_of_inferredFinding? inferred
      · cases reported
    · exact absurd member List.not_mem_nil

theorem reportsOwn : checker.ReportsOwn context :=
  .ofFindings fun _ => makes_of_mem_findings

end Casing

theorem AttributeList.reportsOwn {context : Context} : checker.ReportsOwn context := by
  apply Checker.ReportsOwn.ofFindings
  intro node found member
  obtain ⟨attr, -, reported⟩ := Option.bind_eq_some_iff.mp (Option.mem_toList.mp member)
  obtain ⟨list, -, reported⟩ := Option.bind_eq_some_iff.mp reported
  split at reported
  · cases reported
    exact (Context.Makes.plain _ _).withSuggestion _
  · cases reported

theorem AnonymousMethodList.reportsOwn {context : Context} : checker.ReportsOwn context := by
  intro node progress
  change context.AddsUnder descriptor progress (check context node progress).2
  unfold check
  cases emptyList? node with
  | none => exact .refl progress
  | some list =>
      -- The queries only change the signal.
      obtain ⟨answer, signal⟩ := isRemovable context node progress.signal
      have asked : context.AddsUnder descriptor progress { progress with signal } :=
        .of_reporter rfl
      match answer with
      | none => exact asked
      | some true => exact asked.trans (.push _ ((Context.Makes.plain _ _).withSuggestion _))
      | some false => exact asked

theorem Builtin.reportsOwn {context : Context} :
    ∀ checker ∈ Builtin.checkers, checker.ReportsOwn context := by
  simp only [checkers, List.forall_mem_cons]
  exact ⟨Casing.reportsOwn, AnonymousMethodList.reportsOwn, AttributeList.reportsOwn, by simp⟩

/-! ### Scripts -/

namespace Script

section Run

variable (descriptor : Descriptor) (context : Context) (node : Node)

mutual

theorem Action.run_addsUnder (progress : Progress) :
    (action : Action) → context.AddsUnder descriptor progress
      (action.run descriptor context node progress).2
  | .report _ properties => .push progress ((Context.Makes.plain _ _).withProperties properties)
  | .emit _ _ => .push progress ((Context.Makes.plain _ _).withSuggestions _)
  | .when text actions => by
      rw [Action.run]
      split
      · exact Action.runAll_addsUnder progress actions
      · exact .refl progress
  | .raise => .of_reporter rfl
  | .look => .of_reporter rfl
  | .fail _ => .refl progress
  | .crash _ => .refl progress

theorem Action.runAll_addsUnder (progress : Progress) :
    (actions : List Action) → context.AddsUnder descriptor progress
      (Action.runAll descriptor context node progress actions).2
  | [] => .refl progress
  | action :: actions => by
      have first := Action.run_addsUnder progress action
      rw [Action.runAll]
      revert first
      rcases action.run descriptor context node progress with ⟨result, reached⟩
      intro first
      cases result with
      | done => exact first.trans (Action.runAll_addsUnder reached actions)
      | failed error => exact first
      | crashed message => exact first

end

end Run

theorem reportsOwn (descriptor : Descriptor) (kinds : List Kind) (actions : List Action)
    (context : Context) : (checker descriptor kinds actions).ReportsOwn context :=
  fun node progress => Action.runAll_addsUnder descriptor context node progress actions

end Script

end TreeLint
