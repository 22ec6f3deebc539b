import TreeLint.Proofs.Analysis.Contents
import TreeLint.Proofs.Analysis.RemovalFindings
import TreeLint.Proofs.Tree.Paths
import TreeLint.Proofs.Tree.Walk

/-!
# The reported lists

The lists that the rules about lists report are nodes of the tree, one for each of their findings
(`TreeLint.Engine.locations_perm`), and ways down tell them from all other nodes
(`TreeLint.Engine.kind_of_mem_reportedPaths`).
-/

namespace TreeLint

/-- Whether a finding is one of the two rules about lists. -/
def Finding.isRemoval (finding : Finding) : Bool :=
  finding.ruleId = AnonymousMethodList.descriptor.id ||
    finding.ruleId = AttributeList.descriptor.id

/-- The list that the rules report at a node, if they report one: the first parameter list of an
anonymous method, or the first argument list of an attribute. -/
def Builtin.reportedList? (context : Context) (node : Node) : Option Node :=
  if (findings context node).isEmpty then none
  else
    match node.kind with
    | .anonymousMethodExpression => node.parameterList?.map (·.node)
    | .attribute => (node.childAs? .attributeArgumentList).map (·.node)
    | _ => none

/-- The lists that the rules report in a unit. -/
def Engine.reportedLists (settings : Settings) (unit : AnalysisUnit) : List Node :=
  unit.tree.root.descendants.filterMap (Builtin.reportedList? ⟨unit, settings⟩)

/-- The ways down to the lists that the rules report in a unit. -/
def Engine.reportedPaths (settings : Settings) (unit : AnalysisUnit) : List (List Nat) :=
  (reportedLists settings unit).map (·.path)

namespace Builtin

variable (context : Context) {node : Node}

/-- The findings about an anonymous method are one about its first parameter list, or none. -/
theorem findings_of_anonymous (anonymous : node.kind = .anonymousMethodExpression) :
    findings context node = [] ∨ ∃ list, node.parameterList? = some list ∧
      findings context node = [AnonymousMethodList.finding context list] := by
  rw [findings_of_rule anonymous rfl, ReportingRule.reported]
  split
  · exact .inl rfl
  · change (AnonymousMethodList.finding? context node).toList = [] ∨ ∃ list, _ ∧
      (AnonymousMethodList.finding? context node).toList = _
    cases reported : AnonymousMethodList.finding? context node with
    | none => exact .inl rfl
    | some found =>
        obtain ⟨list, first, rfl⟩ := AnonymousMethodList.exists_list_of_finding? reported
        exact .inr ⟨list, first, rfl⟩

theorem findings_of_attribute (isAttribute : node.kind = .attribute) :
    findings context node = [] ∨ ∃ attr list, node.childAs? .attributeArgumentList = some list ∧
      findings context node = [AttributeList.finding context attr list] := by
  rw [findings_of_rule isAttribute rfl, ReportingRule.reported]
  split
  · exact .inl rfl
  · change AttributeList.findings context node = [] ∨ ∃ attr list, _ ∧
      AttributeList.findings context node = _
    rw [AttributeList.findings, Node.as?_of_kind isAttribute, Option.bind_some]
    cases reported : AttributeList.finding? context ⟨node, isAttribute⟩ with
    | none => exact .inl rfl
    | some found =>
        obtain ⟨list, first, reported⟩ := Option.bind_eq_some_iff.mp reported
        split at reported
        · cases reported
          exact .inr ⟨⟨node, isAttribute⟩, list, first, rfl⟩
        · cases reported

theorem not_isRemoval_of_other (noMethod : node.kind ≠ .anonymousMethodExpression)
    (noAttribute : node.kind ≠ .attribute) :
    ∀ found ∈ findings context node, found.isRemoval ≠ true := by
  intro found member
  rcases mem_findings_iff.mp member with ⟨-, casing⟩ | ⟨-, removal⟩ | ⟨-, marking⟩
  · have own := Casing.findings_ruleId context node found casing
    rw [Finding.isRemoval, own]
    decide
  · rw [AnonymousMethodList.finding?_of_other noMethod] at removal
    cases removal
  · rw [AttributeList.findings_of_other noAttribute] at marking
    exact absurd marking List.not_mem_nil

/-- The findings of the rules about lists are at the lists that are reported. -/
theorem locations_findings (node : Node) :
    ((findings context node).filter Finding.isRemoval).map (·.location) =
      ((reportedList? context node).map fun list => context.location list.span).toList := by
  unfold reportedList?
  by_cases anonymous : node.kind = .anonymousMethodExpression
  · rcases findings_of_anonymous context anonymous with nothing | ⟨list, first, one⟩
    · rw [nothing]
      rfl
    · rw [one, anonymous, first]
      rfl
  by_cases isAttribute : node.kind = .attribute
  · rcases findings_of_attribute context isAttribute with nothing |
      ⟨attr, list, first, one⟩
    · rw [nothing]
      rfl
    · rw [one, isAttribute, first]
      rfl
  · have others : (findings context node).filter Finding.isRemoval = [] :=
      List.filter_eq_nil_iff.mpr (not_isRemoval_of_other context anonymous isAttribute)
    rw [others]
    split
    · rfl
    · split
      · contradiction
      · contradiction
      · rfl

theorem reportedList?_of_mem {found : Finding} (member : found ∈ findings context node)
    {kind : NodeKind} {list : View kind} (first : node.childAs? kind = some list)
    (owned : node.kind = .anonymousMethodExpression ∧ kind = .parameterList ∨
      node.kind = .attribute ∧ kind = .attributeArgumentList) :
    reportedList? context node = some list.node := by
  have some : (findings context node).isEmpty ≠ true := by
    rw [ne_eq, List.isEmpty_iff]
    exact List.ne_nil_of_mem member
  rw [reportedList?, if_neg some]
  rcases owned with ⟨anonymous, rfl⟩ | ⟨isAttribute, rfl⟩
  · rw [anonymous]
    exact congrArg (Option.map (·.node)) first
  · rw [isAttribute]
    exact congrArg (Option.map (·.node)) first

theorem list_of_reportedList? {list : Node} (reported : reportedList? context node = some list) :
    list ∈ node.children ∧ (list.kind = .parameterList ∨ list.kind = .attributeArgumentList) := by
  unfold reportedList? at reported
  split at reported
  · cases reported
  · split at reported
    · obtain ⟨view, first, rfl⟩ := Option.map_eq_some_iff.mp reported
      exact ⟨Node.mem_children_of_childAs? first, .inl view.kind_eq⟩
    · obtain ⟨view, first, rfl⟩ := Option.map_eq_some_iff.mp reported
      exact ⟨Node.mem_children_of_childAs? first, .inr view.kind_eq⟩
    · cases reported

end Builtin

namespace Engine

variable {settings : Settings} {unit : AnalysisUnit} {signal : Signal}

/-- A pass that was not stopped has a finding for each list that is reported. -/
theorem locations_perm (finished : ((builtin settings).analyze unit signal).1.cancelled = false) :
    ((((builtin settings).analyze unit signal).1.findings.filter Finding.isRemoval).map
        (·.location)).Perm
      ((reportedLists settings unit).map fun list =>
        Context.location ⟨unit, settings⟩ list.span) := by
  have chosen := ((findings_perm finished).filter Finding.isRemoval).map (·.location)
  rw [complete, List.filter_flatMap, List.map_flatMap,
    funext (Builtin.locations_findings ⟨unit, settings⟩), filterMap_eq_flatMap_toList] at chosen
  rw [reportedLists, List.map_filterMap]
  exact chosen

/-- A node at the way down to a reported list is a list. -/
theorem kind_of_mem_reportedPaths {node : Node} (placed : node.Placed unit.tree)
    (listed : node.path ∈ reportedPaths settings unit) :
    node.kind = .parameterList ∨ node.kind = .attributeArgumentList := by
  obtain ⟨list, reported, path⟩ := List.mem_map.mp listed
  obtain ⟨owner, visited, reported⟩ := List.mem_filterMap.mp reported
  obtain ⟨member, kinds⟩ := Builtin.list_of_reportedList? _ reported
  have below := (Node.placed_of_mem_descendants visited).child member
  rw [below.eq_of_path placed path] at kinds
  exact kinds

theorem mem_reportedPaths {owner list : Node} (placed : owner.Placed unit.tree)
    (reported : Builtin.reportedList? ⟨unit, settings⟩ owner = some list) :
    list.path ∈ reportedPaths settings unit :=
  List.mem_map.mpr ⟨list, List.mem_filterMap.mpr ⟨owner, placed.mem_descendants, reported⟩, rfl⟩

end Engine

end TreeLint
