import TreeLint.Proofs.Analysis.Contents
import TreeLint.Proofs.Analysis.Interruption
import TreeLint.Proofs.Finding.Order
import TreeLint.Proofs.Version.Order

/-!
# What versions and options add

The version of the language and the option for names that are taken over are gates of the casing
rule: they let through the findings about names of one kind, and change nothing else
(`TreeLint.Builtin.findings_offering`). The gates that one version opens are open in all later
versions, so a later version and the option only add findings
(`TreeLint.Engine.capabilities_add`).
-/

namespace TreeLint

/-- A context with another version and another option for names that are taken over. -/
def Context.offering (context : Context) (version : Version) (includeInferred : Bool) : Context :=
  ⟨context.unit.withVersion version, { context.settings with includeInferred }⟩

namespace Casing

/-- Whether a version and an option let a finding through. Those of the casing rule that carry a
corrected name are about names that are written down, the others about names that are taken over;
findings of other rules are let through anyway. -/
def offered (version : Version) (includeInferred : Bool) (found : Finding) : Bool :=
  if found.ruleId = descriptor.id then
    if (found.property? namePropertyKey).isSome then version.supportsNamedTuples
    else version.supportsInferredNames && includeInferred
  else true

variable {context : Context} {version : Version} {includeInferred : Bool} {found : Finding}

theorem offered_of_written {token : Token}
    (reported : writtenFinding? context token = some found) :
    offered version includeInferred found = version.supportsNamedTuples := by
  obtain ⟨fixed, -, rfl⟩ := Option.map_eq_some_iff.mp reported
  rfl

theorem offered_of_inferred {expression : Node}
    (reported : inferredFinding? context expression = some found) :
    offered version includeInferred found =
      (version.supportsInferredNames && includeInferred) := by
  obtain ⟨name, -, reported⟩ := Option.bind_eq_some_iff.mp reported
  obtain ⟨fixed, -, reported⟩ := Option.bind_eq_some_iff.mp reported
  cases reported
  rfl

theorem filter_offered_of_others {findings : List Finding}
    (others : ∀ found ∈ findings, found.ruleId ≠ descriptor.id) :
    findings.filter (offered version includeInferred) = findings :=
  List.filter_eq_self.mpr fun found member => if_neg (others found member)

/-- To filter what a wide gate lets through is to put a narrow gate in its place. -/
theorem filter_gate {wide narrow : Bool} (narrower : narrow = true → wide = true)
    {keep : Finding → Bool} {result : Option Finding}
    (kept : ∀ found, result = some found → keep found = narrow) :
    (if wide then result else none).filter keep = if narrow then result else none := by
  cases wide with
  | false =>
      cases narrow with
      | false => rfl
      | true => exact absurd (narrower rfl) Bool.false_ne_true
  | true =>
      cases result with
      | none => rw [ite_self, ite_self, Option.filter_none]
      | some found => rw [if_pos rfl, Option.filter_some, kept found rfl]

variable (written : version.supportsNamedTuples = true → checksWritten context = true)

include written

theorem elementFinding?_offering (element : TupleElement) :
    elementFinding? (context.offering version includeInferred) element =
      (elementFinding? context element).filter (offered version includeInferred) := by
  refine (filter_gate written fun found reported => ?_).symm
  obtain ⟨token, -, reported⟩ := Option.bind_eq_some_iff.mp reported
  exact offered_of_written reported

variable (inferred : (version.supportsInferredNames && includeInferred) = true →
  checksInferred context = true)

include inferred

theorem argumentFinding?_offering (argument : Argument) :
    argumentFinding? (context.offering version includeInferred) argument =
      (argumentFinding? context argument).filter (offered version includeInferred) := by
  unfold argumentFinding?
  cases argument.nameColon? with
  | some label =>
      refine (filter_gate written fun found reported => ?_).symm
      obtain ⟨token, -, reported⟩ := Option.bind_eq_some_iff.mp reported
      exact offered_of_written reported
  | none =>
      refine (filter_gate inferred fun found reported => ?_).symm
      obtain ⟨expression, -, reported⟩ := Option.bind_eq_some_iff.mp reported
      exact offered_of_inferred reported

theorem findings_offering (node : Node) :
    findings (context.offering version includeInferred) node =
      (findings context node).filter (offered version includeInferred) := by
  unfold findings
  cases node.as? .tupleType with
  | some tuple =>
      simp only [List.filter_filterMap]
      exact congrArg (List.filterMap · _) (funext (elementFinding?_offering written))
  | none =>
      cases node.as? .tupleExpression with
      | some tuple =>
          simp only [List.filter_filterMap]
          exact congrArg (List.filterMap · _) (funext (argumentFinding?_offering written inferred))
      | none => rfl

end Casing

namespace Builtin

/-- A version and an option that open no further gate let through a part of what is found about a
node. -/
theorem findings_offering (context : Context) {version : Version} {includeInferred : Bool}
    (written : version.supportsNamedTuples = true → Casing.checksWritten context = true)
    (inferred : (version.supportsInferredNames && includeInferred) = true →
      Casing.checksInferred context = true) (node : Node) :
    findings (context.offering version includeInferred) node =
      (findings context node).filter (Casing.offered version includeInferred) := by
  unfold findings
  cases chosen : ruleFor? node.kind with
  | none => rfl
  | some rule =>
      dsimp only
      rcases ruleFor?_eq_some chosen with rfl | rfl | rfl
      · unfold ReportingRule.reported
        rw [apply_ite (List.filter _)]
        exact congrArg (ite _ _) (Casing.findings_offering written inferred node)
      · refine (Casing.filter_offered_of_others fun found member => ?_).symm
        rw [AnonymousMethodList.rule.own context node found
          (ReportingRule.mem_reported_iff.mp member).2]
        decide
      · refine (Casing.filter_offered_of_others fun found member => ?_).symm
        rw [AttributeList.rule.own context node found (ReportingRule.mem_reported_iff.mp member).2]
        decide

end Builtin

namespace Engine

variable {settings : Settings} {unit : AnalysisUnit}

theorem complete_offering {version later : Version} {includeInferred includeInferredToo : Bool}
    (versions : version.order later ≠ .gt) (options : includeInferred ≤ includeInferredToo) :
    complete { settings with includeInferred } (unit.withVersion version) =
      (complete { settings with includeInferred := includeInferredToo }
        (unit.withVersion later)).filter (Casing.offered version includeInferred) := by
  unfold complete
  rw [List.filter_flatMap]
  let context : Context :=
    ⟨unit.withVersion later, { settings with includeInferred := includeInferredToo }⟩
  have written : version.supportsNamedTuples = true → Casing.checksWritten context = true :=
    Version.atLeast_mono versions
  have inferred (gate : (version.supportsInferredNames && includeInferred) = true) :
      Casing.checksInferred context = true := by
    obtain ⟨supports, included⟩ := Bool.and_eq_true_iff.mp gate
    exact Bool.and_eq_true_iff.mpr ⟨Version.atLeast_mono versions supports, options included⟩
  exact congrArg (List.flatMap · _) (funext (Builtin.findings_offering context written inferred))

/-- **Versions and options only add findings.** The host never raises the signal, which was raised
from the start or never is. Then a unit in an earlier version, and with names that are taken over
checked only if they are so in the later version, has the findings of the later version that the
earlier one and its option let through, in the same order and otherwise the same. A version that has
inferred names has named tuples. -/
theorem capabilities_add (settings : Settings) (unit : AnalysisUnit) (raised : Bool)
    (unraising : ∀ id, unit.model.raises id = false) {version later : Version}
    (versions : version.order later ≠ .gt) {includeInferred includeInferredToo : Bool}
    (options : includeInferred ≤ includeInferredToo) :
    ((builtin { settings with includeInferred }).analyze (unit.withVersion version)
        (.ofRaised raised)).1.findings =
      ((builtin { settings with includeInferred := includeInferredToo }).analyze
        (unit.withVersion later) (.ofRaised raised)).1.findings.filter
          (Casing.offered version includeInferred) ∧
    ((builtin { settings with includeInferred }).analyze (unit.withVersion version)
        (.ofRaised raised)).1.findings.Sublist
      ((builtin { settings with includeInferred := includeInferredToo }).analyze
        (unit.withVersion later) (.ofRaised raised)).1.findings ∧
    ∀ version : Version, version.supportsInferredNames = true →
      version.supportsNamedTuples = true := by
  have filtered : ((builtin { settings with includeInferred }).analyze (unit.withVersion version)
      (.ofRaised raised)).1.findings =
      ((builtin { settings with includeInferred := includeInferredToo }).analyze
        (unit.withVersion later) (.ofRaised raised)).1.findings.filter
          (Casing.offered version includeInferred) := by
    have still (version : Version) :
        ∀ id, (unit.withVersion version).model.raises id = false := unraising
    rw [findings_of_unraising (still version), findings_of_unraising (still later)]
    cases raised with
    | true => rfl
    | false =>
        change Finding.sorted _ = (Finding.sorted _).filter _
        rw [complete_offering versions options, Finding.sorted_filter]
  refine ⟨filtered, ?_, fun _ => Version.supportsNamedTuples_of_inferred⟩
  rw [filtered]
  exact List.filter_sublist

/-- A tuple literal with a name that is written down and one that is taken over. -/
def summed : AnalysisUnit :=
  .withoutSemantics "Summed.cs" ⟨.tupleExpression, [.token .leftParen "(",
    .node .argument [
      .node .nameColon [.node .identifierName [.token .identifier "Sum"], .token .colon ":"],
      .node .literalExpression [.token .intLiteral "1"]],
    .token .comma ",",
    .node .argument [.node .identifierName [.token .identifier "Count"]],
    .token .rightParen ")"]⟩

theorem capabilities_add_summed :
    (∀ id, summed.model.raises id = false) ∧ Version.namedTuples.order .latest ≠ .gt ∧
    false ≤ true ∧
    ((builtin (.naming .camelCase true)).analyze (summed.withVersion .latest)
      .quiet).1.findings.map (·.messageArgs) = [["Sum", "camelCase"], ["Count", "camelCase"]] ∧
    ((builtin (.naming .camelCase false)).analyze (summed.withVersion .namedTuples)
      .quiet).1.findings.map (·.messageArgs) = [["Sum", "camelCase"]] ∧
    ((builtin (.naming .camelCase false)).analyze (summed.withVersion .namedTuples)
        .quiet).1.findings.Sublist
      ((builtin (.naming .camelCase true)).analyze (summed.withVersion .latest)
        .quiet).1.findings := by
  have unraising : ∀ id, summed.model.raises id = false := fun _ => rfl
  have versions : Version.namedTuples.order .latest ≠ .gt := by decide
  have options : false ≤ true := by decide
  obtain ⟨-, sublist, -⟩ :=
    capabilities_add .default summed false unraising versions options
  exact ⟨unraising, versions, options, by decide, by decide, sublist⟩

end Engine

end TreeLint
