import TreeLint.Proofs.Analysis.Interruption
import TreeLint.Proofs.Finding.Order
import TreeLint.Proofs.Rule.Decision
import TreeLint.Proofs.Rule.Names

/-!
# What an outcome can hold

A finding of the built-in rules comes from the casing rule, from the rule about anonymous methods or
from the rule about attributes (`TreeLint.Builtin.mem_findings_iff`), and every finding of an
outcome is one about a node of the tree (`TreeLint.Engine.exists_node_of_mem_findings`). A pass that
was not stopped has all of these (`TreeLint.Engine.mem_findings_iff`).
-/

namespace TreeLint

namespace ReportingRule

theorem mem_reported_iff {rule : ReportingRule} {context : Context} {node : Node}
    {found : Finding} : found ∈ rule.reported context node ↔
      context.severityFor? rule.checker.descriptor ≠ none ∧ found ∈ rule.findings context node := by
  unfold reported
  by_cases off : context.severityFor? rule.checker.descriptor = none
  · simp only [off, ↓reduceIte, List.not_mem_nil, ne_eq, not_true_eq_false, false_and]
  · simp only [off, ↓reduceIte, ne_eq, not_false_eq_true, true_and]

end ReportingRule

variable {context : Context} {node : Node} {found : Finding}

theorem Casing.findings_of_other (noType : node.kind ≠ .tupleType)
    (noLiteral : node.kind ≠ .tupleExpression) : findings context node = [] := by
  unfold findings
  rw [Node.as?_of_other noType, Node.as?_of_other noLiteral]

theorem AttributeList.findings_of_other (other : node.kind ≠ .attribute) :
    findings context node = [] := by
  rw [findings, Node.as?_of_other other]
  rfl

/-- There is a finding exactly about the first argument list of an attribute, when it has no
arguments. -/
theorem AttributeList.mem_findings_iff : found ∈ findings context node ↔
    ∃ (attr : Attribute) (list : AttributeArgumentList), attr.node = node ∧
      attr.argumentList? = some list ∧ list.arguments = [] ∧ found = finding context attr list := by
  unfold findings finding?
  rw [Option.mem_toList]
  constructor
  · intro reported
    obtain ⟨attr, known, reported⟩ := Option.bind_eq_some_iff.mp reported
    obtain ⟨list, first, reported⟩ := Option.bind_eq_some_iff.mp reported
    split at reported
    · next nothing =>
        cases reported
        exact ⟨attr, list, Node.as?_node known, first, List.isEmpty_iff.mp nothing, rfl⟩
    · cases reported
  · rintro ⟨attr, list, rfl, first, nothing, rfl⟩
    have known : attr.node.as? .attribute = some attr := Node.as?_of_kind attr.kind_eq
    refine Option.bind_eq_some_iff.mpr ⟨attr, known, ?_⟩
    refine Option.bind_eq_some_iff.mpr ⟨list, first, ?_⟩
    rw [nothing]
    rfl

namespace Builtin

/-- The findings about a node come from the rules that are on. -/
theorem mem_findings_iff : found ∈ findings context node ↔
    (context.severityFor? Casing.descriptor ≠ none ∧ found ∈ Casing.findings context node) ∨
    (context.severityFor? AnonymousMethodList.descriptor ≠ none ∧
      AnonymousMethodList.finding? context node = some found) ∨
    (context.severityFor? AttributeList.descriptor ≠ none ∧
      found ∈ AttributeList.findings context node) := by
  by_cases isType : node.kind = .tupleType
  · rw [findings_of_rule isType rfl, ReportingRule.mem_reported_iff,
      AnonymousMethodList.finding?_of_other (by rw [isType]; decide),
      AttributeList.findings_of_other (by rw [isType]; decide)]
    simp only [reduceCtorEq, List.not_mem_nil, and_false, or_false]
    rfl
  by_cases isLiteral : node.kind = .tupleExpression
  · rw [findings_of_rule isLiteral rfl, ReportingRule.mem_reported_iff,
      AnonymousMethodList.finding?_of_other (by rw [isLiteral]; decide),
      AttributeList.findings_of_other (by rw [isLiteral]; decide)]
    simp only [reduceCtorEq, List.not_mem_nil, and_false, or_false]
    rfl
  by_cases isMethod : node.kind = .anonymousMethodExpression
  · rw [findings_of_rule isMethod rfl, ReportingRule.mem_reported_iff,
      Casing.findings_of_other isType isLiteral,
      AttributeList.findings_of_other (by rw [isMethod]; decide)]
    simp only [List.not_mem_nil, and_false, or_false, false_or]
    exact and_congr_right fun _ => Option.mem_toList
  by_cases isAttribute : node.kind = .attribute
  · rw [findings_of_rule isAttribute rfl, ReportingRule.mem_reported_iff,
      Casing.findings_of_other isType isLiteral, AnonymousMethodList.finding?_of_other isMethod]
    simp only [List.not_mem_nil, reduceCtorEq, and_false, false_or]
    rfl
  · have nothing : ruleFor? node.kind = none := by
      unfold ruleFor?
      split
      · contradiction
      · contradiction
      · contradiction
      · contradiction
      · rfl
    rw [findings, nothing, Casing.findings_of_other isType isLiteral,
      AnonymousMethodList.finding?_of_other isMethod, AttributeList.findings_of_other isAttribute]
    simp only [List.not_mem_nil, reduceCtorEq, and_false, or_false]

end Builtin

namespace Engine

variable {settings : Settings} {unit : AnalysisUnit} {signal : Signal}

/-- Whatever became of the signal, a finding is about a node of the tree. -/
theorem exists_node_of_mem_findings
    (member : found ∈ ((builtin settings).analyze unit signal).1.findings) :
    ∃ node ∈ unit.tree.root.descendants, found ∈ Builtin.findings ⟨unit, settings⟩ node := by
  rw [analyze_findings, (Finding.sorted_perm _).mem_iff] at member
  have within := (pass_reports settings unit signal).within
  exact List.mem_flatMap.mp (within.subset member)

/-- A pass that was not stopped lists what there is to report. -/
theorem findings_perm (finished : ((builtin settings).analyze unit signal).1.cancelled = false) :
    ((builtin settings).analyze unit signal).1.findings.Perm (complete settings unit) := by
  rw [analyze_findings, findings_of_goesOn ((analyze_not_cancelled_iff _ _ _).mp finished)]
  exact Finding.sorted_perm _

/-- A pass that was not stopped has all findings about the nodes of the tree. -/
theorem mem_findings_iff
    (finished : ((builtin settings).analyze unit signal).1.cancelled = false) :
    found ∈ ((builtin settings).analyze unit signal).1.findings ↔
      ∃ node ∈ unit.tree.root.descendants, found ∈ Builtin.findings ⟨unit, settings⟩ node := by
  rw [(findings_perm finished).mem_iff]
  exact List.mem_flatMap

end Engine

end TreeLint
