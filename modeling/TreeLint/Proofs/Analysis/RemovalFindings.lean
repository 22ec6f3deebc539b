import TreeLint.Proofs.Finding.Order
import TreeLint.Proofs.Rule.Builtin
import TreeLint.Proofs.Rule.Decision
import TreeLint.Proofs.Symbols.History

/-!
# The findings of a pass about anonymous methods

A pass that ends with the signal unraised lists one finding for each anonymous method whose place
allows to remove its list, and no other finding of this rule
(`TreeLint.Engine.removals_exact`). The host is asked about the first argument that is the same node
as the one at hand. Arguments without text that stand side by side may be the same node, so that the
host is not asked about all of them (`TreeLint.Repeated.not_forall_allowedByRank`).
-/

namespace TreeLint

namespace Builtin

variable {context : Context}

theorem id_of_ruleFor? {kind : NodeKind} {rule : ReportingRule} (chosen : ruleFor? kind = some rule)
    (other : kind ≠ .anonymousMethodExpression) :
    rule.checker.descriptor.id ≠ AnonymousMethodList.descriptor.id := by
  unfold ruleFor? at chosen
  split at chosen
  · cases chosen
    decide
  · cases chosen
    decide
  · exact absurd rfl other
  · cases chosen
    decide
  · cases chosen

/-- What the built-in rules find at a node holds the finding about an anonymous method, if there is
one, and no other finding with that id. -/
theorem filter_findings (on : context.severityFor? AnonymousMethodList.descriptor ≠ none)
    (node : Node) :
    (findings context node).filter (·.ruleId = AnonymousMethodList.descriptor.id) =
      (AnonymousMethodList.finding? context node).toList := by
  by_cases anonymous : node.kind = .anonymousMethodExpression
  · have whole : findings context node = (AnonymousMethodList.finding? context node).toList := by
      rw [findings, anonymous]
      exact if_neg on
    rw [whole, List.filter_eq_self]
    intro found member
    exact decide_eq_true (AnonymousMethodList.finding?_ruleId context node found member)
  · -- Whatever other rule is for this kind reports under an id of its own.
    rw [AnonymousMethodList.finding?_of_other anonymous, Option.toList_none, List.filter_eq_nil_iff]
    intro found member same
    unfold findings at member
    cases chosen : ruleFor? node.kind with
    | none =>
        rw [chosen] at member
        exact absurd member List.not_mem_nil
    | some rule =>
        rw [chosen] at member
        dsimp only at member
        unfold ReportingRule.reported at member
        split at member
        · exact absurd member List.not_mem_nil
        · have own := rule.own context node found member
          rw [of_decide_eq_true same] at own
          exact id_of_ruleFor? chosen anonymous own.symm

end Builtin

namespace AnonymousMethodList

/-- The place of an anonymous method allows to remove its list, where the number of arguments before
an argument is its position. -/
def AllowedByRank (model : SemanticModel) (node : Node) : Prop :=
  AllowedAt (fun _ argument => some argument.node.rank) model node

/-- The two ways to count allow the same exactly if the resolutions at the two positions do. -/
theorem allowed_iff_allowedByRank {model : SemanticModel} {node : Node} {argument : Argument}
    {list call : Node} {position : Nat} (place : ArgumentOf node argument list call)
    (counted : list.positionOf? argument = some position) :
    (Allowed model node ↔ AllowedByRank model node) ↔
      ∀ method, model.boundMethod? call = some method →
        ((model.silent.resolve method position .quiet).1 = some .unambiguous ↔
          (model.silent.resolve method argument.node.rank .quiet).1 = some .unambiguous) := by
  rw [Allowed, AllowedByRank, allowedAt_of_argument place counted, allowedAt_of_argument place rfl]
  simp only [SemanticModel.resolve_silent, Option.some.injEq]
  cases model.boundMethod? call with
  | none => simp only [reduceCtorEq, false_and, exists_false, false_implies, implies_true]
  | some method => simp only [Option.some.injEq, forall_eq', exists_eq_left']

end AnonymousMethodList

theorem filterMap_eq_flatMap_toList {α β : Type} (choose : α → Option β) (items : List α) :
    items.flatMap (fun item => (choose item).toList) = items.filterMap choose := by
  induction items with
  | nil => rfl
  | cons item items ih =>
      rw [List.flatMap_cons, List.filterMap_cons, ih]
      cases choose item with
      | none => rfl
      | some value => rfl

namespace Engine

variable {settings : Settings} {unit : AnalysisUnit} {signal : Signal}

theorem findingsFor_perm (on : settings.severityFor? AnonymousMethodList.descriptor ≠ none)
    (unraised : ((builtin settings).analyze unit signal).2.raised = false) :
    (((builtin settings).analyze unit signal).1.findingsFor
        AnonymousMethodList.descriptor.id).Perm
      (unit.tree.root.descendants.filterMap (AnonymousMethodList.finding? ⟨unit, settings⟩)) := by
  have sorted : (((builtin settings).analyze unit signal).1.findings).Perm
      (complete settings unit) := by
    rw [analyze_findings, findings_of_unraised unraised]
    exact Finding.sorted_perm _
  have chosen := sorted.filter (·.ruleId = AnonymousMethodList.descriptor.id)
  have inContext : Context.severityFor? ⟨unit, settings⟩ AnonymousMethodList.descriptor ≠ none := on
  unfold complete at chosen
  rw [List.filter_flatMap, funext (Builtin.filter_findings inContext),
    filterMap_eq_flatMap_toList] at chosen
  exact chosen

open AnonymousMethodList in
/-- **The decision about anonymous methods.** When the rule is on and the signal stays unraised, the
findings of the rule are those about the anonymous methods of the tree, at most one for each. There
is one exactly when the first parameter list of the anonymous method has no parameters and the
place of the anonymous method allows to remove it. The position of an argument in its own list is
always found: it is that of the first argument that is the same node, and so the number of arguments
before it exactly if none of these is the same node, as for every argument with text. The place
allows the same with this number for the position exactly if the resolutions at the two come to the
same. -/
theorem removals_exact (settings : Settings) (unit : AnalysisUnit) (signal : Signal)
    (on : settings.severityFor? AnonymousMethodList.descriptor ≠ none)
    (unraised : ((builtin settings).analyze unit signal).2.raised = false) :
    (((builtin settings).analyze unit signal).1.findingsFor
        AnonymousMethodList.descriptor.id).Perm
      (unit.tree.root.descendants.filterMap (finding? ⟨unit, settings⟩)) ∧
    ∀ node ∈ unit.tree.root.descendants,
      (∀ found, finding? ⟨unit, settings⟩ node = some found ↔
        ∃ list, node.kind = .anonymousMethodExpression ∧ node.parameterList? = some list ∧
          ParameterList.parameters list = [] ∧ Allowed unit.model node ∧
          found = finding ⟨unit, settings⟩ list ∧
          found.location = Context.location ⟨unit, settings⟩ list.node.span) ∧
      ∀ argument list call, ArgumentOf node argument list call →
        ∃ position, list.positionOf? argument = some position ∧
          list.FirstSame argument position ∧
          (position = argument.node.rank ↔
            ∀ index < argument.node.rank, ∀ other, list.arguments[index]? = some other →
              ¬ other.node.Same argument.node) ∧
          (argument.node.text ≠ "" → position = argument.node.rank) ∧
          ((Allowed unit.model node ↔ AllowedByRank unit.model node) ↔
            ∀ method, unit.model.boundMethod? call = some method →
              ((unit.model.silent.resolve method position .quiet).1 = some .unambiguous ↔
                (unit.model.silent.resolve method argument.node.rank .quiet).1 =
                  some .unambiguous)) := by
  refine ⟨findingsFor_perm on unraised, ?_⟩
  intro node member
  have placed := Node.placed_of_mem_descendants member
  refine ⟨?_, ?_⟩
  · intro found
    rw [finding?_eq_some_iff ⟨unit, settings⟩ placed found]
    constructor
    · rintro ⟨list, anonymous, first, nothing, allowed, rfl⟩
      exact ⟨list, anonymous, first, nothing, allowed, rfl, rfl⟩
    · rintro ⟨list, anonymous, first, nothing, allowed, same, -⟩
      exact ⟨list, anonymous, first, nothing, allowed, same⟩
  · intro argument list call place
    obtain ⟨position, counted, first⟩ := place.position placed
    have listed := place.member placed
    refine ⟨position, counted, first, first.eq_rank_iff listed, first.eq_rank_of_text listed, ?_⟩
    exact allowed_iff_allowedByRank place counted

/-- A file with an anonymous method that is no argument. -/
def standalone : AnalysisUnit :=
  .withoutSemantics "Alone.cs" ⟨.compilationUnit, [.node .expressionStatement [
    .node .anonymousMethodExpression [.token .delegateKeyword "delegate",
      .node .parameterList [.token .leftParen "(", .token .rightParen ")"],
      .node .block [.token .leftBrace "\x7b", .token .rightBrace "\x7d"]]]]⟩

theorem removals_standalone : (((builtin .default).analyze standalone .quiet).1.findingsFor
    AnonymousMethodList.descriptor.id).length = 1 := by
  have listed := (removals_exact .default standalone .quiet (by decide) (by decide)).1
  rw [listed.length_eq]
  decide

end Engine

/-! ### Arguments that are the same node -/

namespace Repeated

/-- An argument without text: an anonymous method with an empty parameter list. -/
def bareTree : Tree :=
  ⟨.argument, [.node .anonymousMethodExpression [.node .parameterList []]]⟩

/-- A list of two such arguments. -/
def listTree (between : List Element) : Tree :=
  ⟨.argumentList, .token .leftParen "(" :: bareTree.element :: between ++
    [bareTree.element, .token .rightParen ")"]⟩

def callTree (between : List Element) : Tree :=
  ⟨.invocationExpression,
    [.node .identifierName [.token .identifier "Run"], (listTree between).element]⟩

def fileTree (between : List Element) : Tree :=
  ⟨.compilationUnit, [(callTree between).element]⟩

def call (between : List Element) : Node :=
  ⟨callTree between, 0, [⟨fileTree between, 0, 0⟩]⟩

/-- Two overloads of `Run` with two delegates. The call is bound to the one whose delegates are
of one type; the other differs from it in the second delegate. -/
def steps (between : List Element) : List SymbolStep := [
  .addType "Host" .classType, .addType "Func<int>" .delegate, .addType "Action" .delegate,
  .addMethod ⟨0⟩ "Run" [("f", ⟨1⟩), ("g", ⟨1⟩)],
  .addMethod ⟨0⟩ "Run" [("f", ⟨1⟩), ("g", ⟨2⟩)],
  .bind (call between) ⟨0⟩]

def unit (between : List Element) : AnalysisUnit :=
  ⟨"Call.cs", fileTree between, (BoundSymbols.ofSteps (steps between)).model, .latest⟩

/-- The list of the call with nothing between the arguments. -/
def list : Node :=
  ⟨listTree [], 3, ⟨callTree [], 0, 1⟩ :: (call []).above⟩

/-- The second argument, which starts where the first one does. -/
def second : Argument :=
  ⟨⟨bareTree, 4, ⟨listTree [], 3, 2⟩ :: list.above⟩, rfl⟩

def anonymous : Node :=
  ⟨⟨.anonymousMethodExpression, [.node .parameterList []]⟩, 4,
    ⟨bareTree, 4, 0⟩ :: second.node.above⟩

theorem place : AnonymousMethodList.ArgumentOf anonymous second list (call []) where
  under := rfl
  listed := rfl
  isList := .inl rfl
  called := rfl
  isCall := .inl rfl

theorem mem_descendants : anonymous ∈ (unit []).tree.root.descendants :=
  List.mem_of_getElem? (show (unit []).tree.root.descendants[8]? = some anonymous from rfl)

/-- The host is asked about the position of the first argument, where no other overload fits. -/
theorem offered : AnonymousMethodList.finding? ⟨unit [], .default⟩ anonymous ≠ none := by
  have counted : list.positionOf? second = some 0 := by decide
  rw [AnonymousMethodList.finding?_of_argument _ place counted]
  exact ⟨nofun, ⟨0⟩, rfl, by decide⟩

/-- There is one argument before the second one, and at that position the other overload fits. -/
theorem not_allowedByRank :
    ¬ AnonymousMethodList.AllowedByRank (unit []).model anonymous := by
  rw [AnonymousMethodList.AllowedByRank, AnonymousMethodList.allowedAt_of_argument place rfl]
  rintro ⟨method, bound, verdict⟩
  cases bound
  exact absurd verdict (by decide)

/-- So a finding is reported about an argument at whose place another overload fits. -/
theorem not_forall_allowedByRank : ¬ ∀ (settings : Settings) (unit : AnalysisUnit)
    (signal : Signal), settings.severityFor? AnonymousMethodList.descriptor ≠ none →
    ((Engine.builtin settings).analyze unit signal).2.raised = false →
    ∀ node ∈ unit.tree.root.descendants, ∀ found,
      AnonymousMethodList.finding? ⟨unit, settings⟩ node = some found →
      found ∈ ((Engine.builtin settings).analyze unit signal).1.findingsFor
        AnonymousMethodList.descriptor.id →
      AnonymousMethodList.AllowedByRank unit.model node := by
  intro always
  obtain ⟨found, same⟩ := Option.ne_none_iff_exists'.mp offered
  have on : Settings.default.severityFor? AnonymousMethodList.descriptor ≠ none := by decide
  have quiet : ((Engine.builtin .default).analyze (unit []) .quiet).2.raised = false := by decide
  have listed := List.mem_filterMap.mpr ⟨anonymous, mem_descendants, same⟩
  have reported := (Engine.findingsFor_perm on quiet).mem_iff.mpr listed
  exact not_allowedByRank (always .default (unit []) .quiet on quiet anonymous mem_descendants
    found same reported)

end Repeated

end TreeLint
