import TreeLint.Proofs.Rule.Builtin
import TreeLint.Proofs.Tree.Kinds

/-!
# Trees with one node to report about

Rules other than the one about anonymous methods ask the host nothing. A tree in which a rule is for
one node only, and that is no anonymous method, has the findings about this node in order, whatever
the host is like (`TreeLint.Engine.analyze_soleNode`).
-/

namespace TreeLint

/-- A checker that submits the findings of a function leaves a quiet signal alone. -/
theorem Checker.runAll_ofFindings {descriptor : Descriptor} {kinds : List Kind}
    {findings : Context → Node → List Finding} (context : Context) (node : Node)
    {progress : Progress} (quiet : progress.signal = .quiet) :
    (runAll context node progress [.ofFindings descriptor kinds findings]).2.signal = .quiet := by
  rw [runAll_single]
  cases setting : context.severityFor? descriptor with
  | none =>
      rw [run_of_off node progress setting]
      exact quiet
  | some severity =>
      rw [run_of_on node progress setting]
      exact Progress.pushAll_quiet quiet _

namespace Builtin

/-- Whether there is a rule for the nodes of a kind. -/
def isRuled (kind : NodeKind) : Bool :=
  (ruleFor? kind).isSome

theorem dispatch_quiet_of_other (context : Context) {node : Node}
    (other : node.kind ≠ .anonymousMethodExpression) (progress : Progress)
    (quiet : progress.signal = .quiet) :
    (Registry.builtin.dispatch context node progress).2.signal = .quiet := by
  rw [Registry.dispatch, checkersFor]
  unfold ruleFor?
  split
  · exact Checker.runAll_ofFindings context node quiet
  · exact Checker.runAll_ofFindings context node quiet
  · contradiction
  · exact Checker.runAll_ofFindings context node quiet
  · exact quiet

end Builtin

namespace Engine

theorem flatMap_filter_of_nil {α β : Type} {keep : α → Bool} {part : α → List β}
    (nothing : ∀ item, keep item = false → part item = []) (items : List α) :
    items.flatMap part = (items.filter keep).flatMap part := by
  induction items with
  | nil => rfl
  | cons item items ih =>
      rw [List.flatMap_cons, ih]
      cases kept : keep item with
      | true => rw [List.filter_cons_of_pos kept, List.flatMap_cons]
      | false =>
          have passed : ¬keep item = true := by rw [kept]; nofun
          rw [List.filter_cons_of_neg passed, nothing item kept, List.nil_append]

variable (settings : Settings) {unit : AnalysisUnit} {node : Node}

theorem complete_of_soleNode
    (sole : unit.tree.root.descendants.filter (Builtin.isRuled ·.kind) = [node]) :
    complete settings unit = Builtin.findings ⟨unit, settings⟩ node := by
  have nothing (other : Node) (unruled : Builtin.isRuled other.kind = false) :
      Builtin.findings ⟨unit, settings⟩ other = [] := by
    rw [Builtin.findings, Option.isNone_iff_eq_none.mp (Option.isSome_eq_false_iff.mp unruled)]
  rw [complete, flatMap_filter_of_nil nothing, sole, List.flatMap_singleton]

/-- A tree with one node to report about has the findings about it. -/
theorem analyze_soleNode
    (sole : unit.tree.root.descendants.filter (Builtin.isRuled ·.kind) = [node])
    (other : node.kind ≠ .anonymousMethodExpression) :
    ((builtin settings).analyze unit .quiet).1.findings =
        Finding.sorted (Builtin.findings ⟨unit, settings⟩ node) ∧
      ((builtin settings).analyze unit .quiet).1.cancelled = false := by
  have others : ∀ visited ∈ unit.tree.root.descendants,
      visited.kind ≠ .anonymousMethodExpression := by
    intro visited member anonymous
    have ruled : Builtin.isRuled visited.kind = true := by rw [anonymous]; rfl
    have listed : visited ∈ unit.tree.root.descendants.filter (Builtin.isRuled ·.kind) :=
      List.mem_filter.mpr ⟨member, ruled⟩
    rw [sole, List.mem_singleton] at listed
    exact other (listed ▸ anonymous)
  have start : (Progress.start .quiet true).signal = .quiet := rfl
  have quiet := (builtin settings).traverse_quiet ⟨unit, settings⟩ unit.tree.root.descendants
    (fun visited member => Builtin.dispatch_quiet_of_other ⟨unit, settings⟩ (others visited member))
    start
  have unraised : ((builtin settings).analyze unit .quiet).2.raised = false :=
    congrArg Signal.raised quiet
  constructor
  · rw [analyze_findings, findings_of_unraised unraised, complete_of_soleNode settings sole]
  · exact (analyze_not_cancelled_iff _ _ _).mpr
      ((pass_reports settings unit .quiet).complete unraised).1

end Engine

end TreeLint
