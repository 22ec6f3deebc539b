import TreeLint.Proofs.Rule.Reporting
import TreeLint.Rule.AnonymousMethodList

/-!
# What the check of anonymous methods finds

Whether the list of an anonymous method can be removed is decided by the tree and the answers of
the host (`TreeLint.AnonymousMethodList.removable`). A signal that is raised on the way keeps the
check from an answer, but never changes it.
-/

namespace TreeLint.AnonymousMethodList

variable (context : Context) (node : Node)

/-- Whether the list of an anonymous method can be removed, whatever the signal says. -/
def removable : Bool :=
  match callArgument? node with
  | none => true
  | some argument =>
      match context.unit.model.boundMethod? argument.call with
      | none => false
      | some method => (context.unit.model.verdict method argument.position).isSafe

/-- The finding about a node, if there is one. -/
def finding? : Option Finding :=
  (emptyList? node).bind fun list =>
    if removable context node then some (finding context list) else none

theorem isRemovable_withholds (signal : Signal) :
    Withholds (removable context node) signal (isRemovable context node signal) := by
  unfold isRemovable removable
  cases callArgument? node with
  | none => exact .of_answer (.refl signal)
  | some argument =>
      dsimp only
      cases context.unit.model.boundMethod? argument.call with
      | none => exact .of_answer (.refl signal)
      | some method =>
          have verdict := context.unit.model.resolve_withholds method argument.position signal
          refine ⟨verdict.before, ?_⟩
          rcases verdict.answered with answer | withheld
          · refine .inl ?_
            dsimp only
            rw [answer]
            rfl
          · refine .inr ⟨?_, withheld.2⟩
            dsimp only
            rw [withheld.1]
            rfl

theorem isRemovable_silent :
    isRemovable context.silent node .quiet = (some (removable context node), .quiet) := by
  unfold isRemovable removable
  cases callArgument? node with
  | none => rfl
  | some argument =>
      dsimp only [Context.silent, AnalysisUnit.silent]
      change (match context.unit.model.boundMethod? argument.call with
        | none => _
        | some method => _) = _
      cases context.unit.model.boundMethod? argument.call with
      | none => rfl
      | some method =>
          dsimp only
          rw [SemanticModel.resolve_silent]
          rfl

theorem check_unfailing (progress : Progress) :
    (check context node progress).1.failureMessage? = none := by
  unfold check
  cases emptyList? node with
  | none => rfl
  | some list =>
      obtain ⟨answer, signal⟩ := isRemovable context node progress.signal
      cases answer with
      | none => rfl
      | some answer => cases answer <;> rfl

/-- A check submits the finding, if there is one, unless a raised signal stops it. -/
theorem check_reports {progress : Progress} (tied : progress.reporter.tied = true) :
    Reports (finding? context node).toList progress
      ((check context node progress).1.flow, (check context node progress).2) := by
  unfold check finding?
  cases emptyList? node with
  | none => exact .nothing progress
  | some list =>
      obtain ⟨before, answered⟩ := isRemovable_withholds context node progress.signal
      rw [Option.bind_some]
      generalize isRemovable context node progress.signal = result at before answered
      obtain ⟨answer, signal⟩ := result
      have asked (flow : Flow) (running : signal.raised = false → flow = .goesOn) :
          Reports [] progress (flow, { progress with signal }) := .of_signal before running
      -- The signal either leaves the answer as it is or has been raised and withholds it.
      rcases answered with same | ⟨withheld, raised⟩
      · cases same
        cases removable context node with
        | true =>
            have still : ({ progress with signal } : Progress).reporter.tied = true := tied
            exact (asked .goesOn fun _ => rfl).trans tied (.push still (finding context list))
        | false => exact asked .goesOn fun _ => rfl
      · cases withheld
        refine (asked .stopped fun unraised => ?_).stopped _
        exact absurd (unraised.symm.trans raised) Bool.false_ne_true

theorem check_quiet {progress : Progress} (quiet : progress.signal = .quiet) :
    (check context.silent node progress).2.signal = .quiet := by
  unfold check
  cases emptyList? node with
  | none => exact quiet
  | some list =>
      rw [quiet]
      dsimp only
      rw [isRemovable_silent]
      cases removable context node with
      | true =>
          have still : ({ progress with signal := .quiet } : Progress).signal = .quiet := rfl
          exact Progress.pushAll_quiet still [finding context.silent list]
      | false => rfl

theorem finding?_ruleId : ∀ found ∈ (finding? context node).toList,
    found.ruleId = descriptor.id := by
  intro found member
  obtain ⟨list, -, reported⟩ := Option.bind_eq_some_iff.mp (Option.mem_toList.mp member)
  split at reported
  · cases reported
    rfl
  · cases reported

theorem emptyList?_of_childless {node : Node} (childless : node.children = []) :
    emptyList? node = none := by
  unfold emptyList?
  cases same : node.as? .anonymousMethodExpression with
  | none => rfl
  | some anonymous =>
      have missing : anonymous.node.parameterList? = none := by
        rw [Node.parameterList?, Node.childAs?, Node.as?_node same, childless]
        rfl
      change (anonymous.node.parameterList?).bind _ = none
      rw [missing]
      rfl

/-- The rule as a reporting one. -/
def rule : ReportingRule where
  checker
  findings := fun context node => (finding? context node).toList
  unfailing := check_unfailing
  reports := fun context node _ => check_reports context node
  own := finding?_ruleId
  below := fun context node childless => by
    rw [finding?, emptyList?_of_childless childless]
    rfl
  quiet := fun context node _ => check_quiet context node
  silent := fun _ _ => rfl

end TreeLint.AnonymousMethodList
