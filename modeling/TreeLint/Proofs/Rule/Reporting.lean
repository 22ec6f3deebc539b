import TreeLint.Proofs.Pass.Reports
import TreeLint.Proofs.Symbols.Verdict
import TreeLint.Proofs.Tree.Placement

/-!
# Rules that report

A reporting rule is a checker together with the findings that it reports about a node. These
depend on the unit and the settings alone, and on what is below the node; they carry the rule's
own id. The signal decides only how many of them are reported.
-/

namespace TreeLint

/-- The unit with a host that never raises the signal. -/
def AnalysisUnit.silent (unit : AnalysisUnit) : AnalysisUnit :=
  { unit with model := unit.model.silent }

/-- The same context for a host that never raises the signal. -/
def Context.silent (context : Context) : Context :=
  { context with unit := context.unit.silent }

theorem Progress.pushAll_quiet {progress : Progress} (quiet : progress.signal = .quiet)
    (findings : List Finding) : (progress.pushAll findings).signal = .quiet := by
  rw [pushAll_of_quiet quiet]
  exact quiet

/-- How a check ends the run over a node: with a request to stop, or not at all. -/
def CheckResult.flow (result : CheckResult) : Flow :=
  if result.isCancelled then .stopped else .goesOn

/-- A checker with the findings that it reports. -/
structure ReportingRule where
  checker : Checker
  findings : Context → Node → List Finding
  /-- The check records no failure. -/
  unfailing : ∀ (context : Context) (node : Node) (progress : Progress),
    (checker.check context node progress).1.failureMessage? = none
  /-- A check with a tied reporter reports the findings. -/
  reports : ∀ (context : Context) (node : Node) (progress : Progress),
    progress.reporter.tied = true →
    Reports (findings context node) progress
      ((checker.check context node progress).1.flow, (checker.check context node progress).2)
  /-- Findings carry the id of the rule. -/
  own : ∀ (context : Context) (node : Node), ∀ finding ∈ findings context node,
    finding.ruleId = checker.descriptor.id
  /-- Findings are about something below the node. -/
  below : ∀ (context : Context) (node : Node), node.children = [] → findings context node = []
  /-- Without a host that raises it a quiet signal is left alone. -/
  quiet : ∀ (context : Context) (node : Node) (progress : Progress), progress.signal = .quiet →
    (checker.check context.silent node progress).2.signal = .quiet
  /-- The host may raise the signal, but does not change what is found. -/
  silent : ∀ (context : Context) (node : Node), findings context.silent node = findings context node

namespace ReportingRule

variable (rule : ReportingRule) (context : Context) (node : Node)

/-- What the rule reports about a node, which is nothing when the rule is off. -/
def reported : List Finding :=
  if context.severityFor? rule.checker.descriptor = none then [] else rule.findings context node

theorem run_reports {progress : Progress} (tied : progress.reporter.tied = true) :
    Reports (rule.reported context node) progress (rule.checker.run context node progress) := by
  unfold reported
  cases setting : context.severityFor? rule.checker.descriptor with
  | none =>
      rw [if_pos rfl, Checker.run_of_off node progress setting]
      exact .nothing progress
  | some severity =>
      rw [if_neg (Option.some_ne_none severity), Checker.run_of_on node progress setting,
        Checker.record, rule.unfailing]
      exact rule.reports context node progress tied

theorem run_quiet {progress : Progress} (quiet : progress.signal = .quiet) :
    (rule.checker.run context.silent node progress).2.signal = .quiet := by
  cases setting : context.silent.severityFor? rule.checker.descriptor with
  | none =>
      rw [Checker.run_of_off node progress setting]
      exact quiet
  | some severity =>
      rw [Checker.run_of_on node progress setting, Checker.record, rule.unfailing]
      exact rule.quiet context node progress quiet

theorem reported_silent : rule.reported context.silent node = rule.reported context node := by
  unfold reported
  rw [rule.silent]
  rfl

theorem reported_of_childless (childless : node.children = []) :
    rule.reported context node = [] := by
  unfold reported
  rw [rule.below context node childless, ite_self]

end ReportingRule

/-- A checker that submits the findings of a function is a reporting rule. -/
def ReportingRule.ofFindings (descriptor : Descriptor) (kinds : List Kind)
    (findings : Context → Node → List Finding)
    (own : ∀ context node, ∀ finding ∈ findings context node, finding.ruleId = descriptor.id)
    (below : ∀ context node, node.children = [] → findings context node = [])
    (silent : ∀ context node, findings context.silent node = findings context node) :
    ReportingRule where
  checker := .ofFindings descriptor kinds findings
  findings
  unfailing := fun _ _ _ => rfl
  reports := fun context node _ tied => .pushAll tied (findings context node)
  own
  below
  quiet := fun _ _ _ quiet => Progress.pushAll_quiet quiet _
  silent

namespace Casing

theorem writtenFinding?_ruleId {context : Context} {token : Token} {found : Finding}
    (reported : writtenFinding? context token = some found) :
    found.ruleId = descriptor.id := by
  obtain ⟨fixed, -, rfl⟩ := Option.map_eq_some_iff.mp reported
  rfl

theorem inferredFinding?_ruleId {context : Context} {expression : Node} {found : Finding}
    (reported : inferredFinding? context expression = some found) :
    found.ruleId = descriptor.id := by
  obtain ⟨name, -, rest⟩ := Option.bind_eq_some_iff.mp reported
  obtain ⟨fixed, -, rest⟩ := Option.bind_eq_some_iff.mp rest
  cases rest
  rfl

theorem elementFinding?_ruleId {context : Context} {element : TupleElement} {found : Finding}
    (reported : elementFinding? context element = some found) :
    found.ruleId = descriptor.id := by
  unfold elementFinding? at reported
  split at reported
  · obtain ⟨token, -, written⟩ := Option.bind_eq_some_iff.mp reported
    exact writtenFinding?_ruleId written
  · cases reported

theorem argumentFinding?_ruleId {context : Context} {argument : Argument} {found : Finding}
    (reported : argumentFinding? context argument = some found) :
    found.ruleId = descriptor.id := by
  unfold argumentFinding? at reported
  split at reported
  · split at reported
    · obtain ⟨token, -, written⟩ := Option.bind_eq_some_iff.mp reported
      exact writtenFinding?_ruleId written
    · cases reported
  · split at reported
    · obtain ⟨expression, -, inferred⟩ := Option.bind_eq_some_iff.mp reported
      exact inferredFinding?_ruleId inferred
    · cases reported

theorem findings_ruleId (context : Context) (node : Node) :
    ∀ found ∈ findings context node, found.ruleId = descriptor.id := by
  intro found member
  unfold findings at member
  split at member
  · obtain ⟨element, -, reported⟩ := List.mem_filterMap.mp member
    exact elementFinding?_ruleId reported
  · split at member
    · obtain ⟨argument, -, reported⟩ := List.mem_filterMap.mp member
      exact argumentFinding?_ruleId reported
    · exact absurd member List.not_mem_nil

theorem findings_of_childless (context : Context) (node : Node) (childless : node.children = []) :
    findings context node = [] := by
  unfold findings
  split
  · next tuple same =>
      rw [TupleType.elements, Node.childrenAs, Node.as?_node same, childless]
      rfl
  · split
    · next tuple same =>
        rw [Node.arguments, Node.childrenAs, Node.as?_node same, childless]
        rfl
    · rfl

/-- The rule as a reporting one. -/
def rule : ReportingRule :=
  .ofFindings descriptor [.node .tupleType, .node .tupleExpression] findings findings_ruleId
    findings_of_childless fun _ _ => rfl

end Casing

namespace AttributeList

theorem findings_ruleId (context : Context) (node : Node) :
    ∀ found ∈ findings context node, found.ruleId = descriptor.id := by
  intro found member
  obtain ⟨attr, -, reported⟩ := Option.bind_eq_some_iff.mp (Option.mem_toList.mp member)
  obtain ⟨list, -, reported⟩ := Option.bind_eq_some_iff.mp reported
  split at reported
  · cases reported
    rfl
  · cases reported

theorem findings_of_childless (context : Context) (node : Node) (childless : node.children = []) :
    findings context node = [] := by
  unfold findings
  cases same : node.as? .attribute with
  | none => rfl
  | some attr =>
      have missing : Attribute.argumentList? attr = none := by
        rw [Attribute.argumentList?, Node.childAs?, Node.as?_node same, childless]
        rfl
      rw [Option.bind_some, finding?, missing]
      rfl

/-- The rule as a reporting one. -/
def rule : ReportingRule :=
  .ofFindings descriptor [.node .attribute] findings findings_ruleId findings_of_childless
    fun _ _ => rfl

end AttributeList

end TreeLint
