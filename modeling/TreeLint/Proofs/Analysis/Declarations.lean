import Mathlib.Data.List.Flatten
import TreeLint.Proofs.Analysis.Contents
import TreeLint.Proofs.Symbols.Bindings
import TreeLint.Proofs.Symbols.Extension

/-!
# What further declarations take away

A host may declare more types and methods while its bindings of calls stay. Since the verdicts on
calls only get worse, the findings about anonymous methods can only become fewer, and all other
findings stay as they are (`TreeLint.Engine.declarations_withdraw`).
-/

namespace TreeLint

/-- The unit with another host. -/
def AnalysisUnit.withModel (unit : AnalysisUnit) (model : SemanticModel) : AnalysisUnit :=
  { unit with model }

/-- The methods to which calls are bound are known, and so are their types. -/
def SemanticModel.KnowsBindings (model : SemanticModel) : Prop :=
  ∀ call bound, model.boundMethod? call = some bound →
    ∃ method type, model.Knows bound method type

section Hosts

variable {settings : Settings} {unit : AnalysisUnit} {model other : SemanticModel}
  (wider : model.Extends other) (bindings : other.boundMethod? = model.boundMethod?)
  (known : model.KnowsBindings)

include wider bindings known

namespace AnonymousMethodList

theorem removable_of_wider {node : Node}
    (removes : removable ⟨unit.withModel other, settings⟩ node = true) :
    removable ⟨unit.withModel model, settings⟩ node = true := by
  cases place : callArgument? node with
  | none => rw [removable, place]
  | some argument =>
      rw [removable, place] at removes ⊢
      dsimp only [AnalysisUnit.withModel] at removes ⊢
      rw [bindings] at removes
      cases binding : model.boundMethod? argument.call with
      | none =>
          rw [binding] at removes
          exact removes
      | some bound =>
          rw [binding] at removes
          dsimp only at removes ⊢
          cases verdict : model.verdict bound argument.position with
          | unambiguous => rfl
          | ambiguous =>
              rw [wider.verdict_of_ambiguous verdict] at removes
              exact removes
          | unresolved =>
              have unknown := SemanticModel.verdict_eq_unresolved_iff.mp verdict
              exact absurd (known argument.call bound binding) unknown

theorem finding?_sublist (node : Node) :
    (finding? ⟨unit.withModel other, settings⟩ node).toList.Sublist
      (finding? ⟨unit.withModel model, settings⟩ node).toList := by
  unfold finding?
  cases emptyList? node with
  | none => exact .refl _
  | some list =>
      rw [Option.bind_some, Option.bind_some]
      split
      · next removes =>
          rw [if_pos (removable_of_wider wider bindings known removes)]
          exact .refl _
      · exact List.nil_sublist _

end AnonymousMethodList

namespace Builtin

theorem findings_sublist (node : Node) :
    (findings ⟨unit.withModel other, settings⟩ node).Sublist
      (findings ⟨unit.withModel model, settings⟩ node) := by
  unfold findings
  cases chosen : ruleFor? node.kind with
  | none => exact .refl _
  | some rule =>
      dsimp only
      rcases ruleFor?_eq_some chosen with rfl | rfl | rfl
      · exact .refl _
      · unfold ReportingRule.reported
        change (if settings.severityFor? _ = none then [] else _).Sublist
          (if settings.severityFor? _ = none then [] else _)
        split
        · exact .refl _
        · exact AnonymousMethodList.finding?_sublist wider bindings known node
      · exact .refl _

end Builtin

theorem Engine.complete_sublist : (complete settings (unit.withModel other)).Sublist
    (complete settings (unit.withModel model)) :=
  List.Sublist.flatMap_right _ fun node _ => Builtin.findings_sublist wider bindings known node

end Hosts

/-! ### Findings of other rules -/

theorem ReportingRule.filter_others (rule : ReportingRule) (context : Context) (node : Node) :
    (rule.reported context node).filter (·.ruleId ≠ rule.checker.descriptor.id) = [] := by
  apply List.filter_eq_nil_iff.mpr
  intro found member other
  have own := rule.own context node found (mem_reported_iff.mp member).2
  exact of_decide_eq_true other own

/-- The host matters to the findings about anonymous methods only. -/
theorem Builtin.filter_others (settings : Settings) (unit : AnalysisUnit)
    (model other : SemanticModel) (node : Node) :
    (findings ⟨unit.withModel other, settings⟩ node).filter
        (·.ruleId ≠ AnonymousMethodList.descriptor.id) =
      (findings ⟨unit.withModel model, settings⟩ node).filter
        (·.ruleId ≠ AnonymousMethodList.descriptor.id) := by
  unfold findings
  cases chosen : ruleFor? node.kind with
  | none => rfl
  | some rule =>
      dsimp only
      rcases ruleFor?_eq_some chosen with rfl | rfl | rfl
      · rfl
      · exact (AnonymousMethodList.rule.filter_others _ node).trans
          (AnonymousMethodList.rule.filter_others _ node).symm
      · rfl

/-! ### Histories -/

namespace BoundSymbols

/-- A table of symbols never raises the signal, and so a resolution gives the verdict. -/
theorem resolve_quiet (bound : BoundSymbols) (id : MethodId) (position : Nat) :
    (bound.model.resolve id position .quiet).1 = some (bound.model.verdict id position) :=
  congrArg Prod.fst (bound.model.resolve_silent id position)

end BoundSymbols

namespace Engine

open BoundSymbols

/-- **Further declarations only take findings away.** A host goes on to declare types, methods and
constructors, and binds no further calls. A call of a known method of a known type that was
ambiguous stays ambiguous, and one that was unambiguous is unambiguous or ambiguous then. When all
calls are bound to such methods, the findings are some of those before, in the same order, and none
but findings about anonymous methods are missing. -/
theorem declarations_withdraw (settings : Settings) (unit : AnalysisUnit)
    (before after : List SymbolStep) (unbinding : ∀ call method, .bind call method ∉ after) :
    (∀ bound method type position, (ofSteps before).model.Knows bound method type →
      (((ofSteps before).model.resolve bound position .quiet).1 = some .ambiguous →
        ((ofSteps (before ++ after)).model.resolve bound position .quiet).1 =
          some .ambiguous) ∧
      (((ofSteps before).model.resolve bound position .quiet).1 = some .unambiguous →
        ((ofSteps (before ++ after)).model.resolve bound position .quiet).1 =
            some .unambiguous ∨
          ((ofSteps (before ++ after)).model.resolve bound position .quiet).1 =
            some .ambiguous)) ∧
    ((ofSteps before).model.KnowsBindings →
      (((builtin settings).analyze (unit.withModel (ofSteps (before ++ after)).model)
          .quiet).1.findings.Sublist
        ((builtin settings).analyze (unit.withModel (ofSteps before).model)
          .quiet).1.findings) ∧
      ((builtin settings).analyze (unit.withModel (ofSteps (before ++ after)).model)
          .quiet).1.findings.filter (·.ruleId ≠ AnonymousMethodList.descriptor.id) =
        ((builtin settings).analyze (unit.withModel (ofSteps before).model)
          .quiet).1.findings.filter (·.ruleId ≠ AnonymousMethodList.descriptor.id)) := by
  have wider := extends_of_grows (ofSteps_grows before after)
  have bindings : (ofSteps (before ++ after)).boundMethod? = (ofSteps before).boundMethod? := by
    funext call
    rw [ofSteps_append]
    exact boundMethod?_foldl_of_other
      (fun other method member => absurd member (unbinding other method)) _
  constructor
  · intro bound method type position knows
    simp only [resolve_quiet, Option.some.injEq]
    exact ⟨wider.verdict_of_ambiguous, wider.verdict_of_unambiguous⟩
  · intro known
    have listed (steps : List SymbolStep) :
        ((builtin settings).analyze (unit.withModel (ofSteps steps).model) .quiet).1.findings =
          Finding.sorted (complete settings (unit.withModel (ofSteps steps).model)) :=
      findings_of_unraising (fun _ => rfl) false
    rw [listed, listed]
    refine ⟨Finding.sorted_sublist (complete_sublist wider bindings known), ?_⟩
    rw [← Finding.sorted_filter, ← Finding.sorted_filter]
    simp only [complete, List.filter_flatMap]
    exact congrArg (Finding.sorted <| List.flatMap · _)
      (funext (Builtin.filter_others settings unit _ _))

end Engine

/-! ### An overload that is declared later -/

namespace Overloaded

/-- The call of `Run` with an anonymous method. -/
def callTree : Tree :=
  ⟨.invocationExpression, [.node .identifierName [.token .identifier "Run"],
    .node .argumentList [.token .leftParen "(",
      .node .argument [.node .anonymousMethodExpression [.token .delegateKeyword "delegate",
        .node .parameterList [.token .leftParen "(", .token .rightParen ")"],
        .node .block [.token .leftBrace "\x7b", .token .rightBrace "\x7d"]]],
      .token .rightParen ")"]]⟩

def unit : AnalysisUnit :=
  .withoutSemantics "Call.cs" callTree

def declared : List SymbolStep := [
  .addType "Host" .classType, .addType "Func<int>" .delegate,
  .addMethod ⟨0⟩ "Run" [("job", ⟨1⟩)], .bind callTree.root ⟨0⟩]

def declaredLater : List SymbolStep := [
  .addType "Action" .delegate, .addMethod ⟨0⟩ "Run" [("job", ⟨2⟩)]]

/-- The findings before and after another overload has been declared. -/
def findings (steps : List SymbolStep) : List Finding :=
  ((Engine.builtin .default).analyze (unit.withModel (BoundSymbols.ofSteps steps).model)
    .quiet).1.findings

theorem findings_withdrawn : (∀ call method, .bind call method ∉ declaredLater) ∧
    (BoundSymbols.ofSteps declared).model.KnowsBindings ∧ (findings declared).length = 1 ∧
    (findings (declared ++ declaredLater)).length = 0 ∧
    (findings (declared ++ declaredLater)).Sublist (findings declared) := by
  have unbinding : ∀ call method, .bind call method ∉ declaredLater := by
    simp [declaredLater]
  have known : (BoundSymbols.ofSteps declared).model.KnowsBindings := by
    intro call bound binding
    have answer := (BoundSymbols.boundMethod?_bind _ callTree.root ⟨0⟩ call).symm.trans binding
    split at answer
    · cases answer
      exact ⟨_, _, rfl, rfl⟩
    · cases answer
  have fewer := (Engine.declarations_withdraw .default unit declared declaredLater
    unbinding).2 known
  exact ⟨unbinding, known, by decide, by decide, fewer.1⟩

end Overloaded

end TreeLint
