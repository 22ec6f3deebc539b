import TreeLint.Proofs.Pass.Traversal

/-!
# What a part of a pass reports

A part of a pass with a tied reporter reports a list of findings when it reports all of them while
the signal stays unraised, and a first part of them otherwise (`TreeLint.Reports`). Parts that are
run one after the other report their findings one after the other (`TreeLint.Reports.andThen`), so
that a traversal reports what is to be reported about its nodes
(`TreeLint.Engine.traverse_reports`).
-/

namespace TreeLint

/-- A part of a pass adds findings to those reported before, up to the point where the signal is
raised. Nothing but a raised signal stops it. -/
structure Reports (findings : List Finding) (before : Progress) (result : Flow × Progress) :
    Prop where
  moves : before.MovesTo result.2
  within : result.2.reporter.findings <+: before.reporter.findings ++ findings
  complete : result.2.signal.raised = false →
    result.1 = .goesOn ∧ result.2.reporter.findings = before.reporter.findings ++ findings

namespace Reports

/-- A part that changes the signal only reports nothing, and may stop when it is raised. -/
theorem of_signal {progress : Progress} {signal : Signal} {flow : Flow}
    (before : progress.signal.Before signal)
    (running : signal.raised = false → flow = .goesOn) :
    Reports [] progress (flow, { progress with signal }) where
  moves := progress.movesTo_signal before
  within := List.prefix_append _ _
  complete := fun unraised => ⟨running unraised, (List.append_nil _).symm⟩

theorem nothing (progress : Progress) : Reports [] progress (.goesOn, progress) :=
  of_signal (.refl _) fun _ => rfl

/-- A submitted finding is the one that is reported. -/
theorem push {progress : Progress} (tied : progress.reporter.tied = true) (finding : Finding) :
    Reports [finding] progress (.goesOn, progress.push finding) := by
  refine ⟨progress.movesTo_push finding, ?_, fun unraised => ⟨rfl, ?_⟩⟩
  · by_cases raised : progress.look.signal.raised = true
    · rw [Progress.push_of_raised tied raised]
      exact List.prefix_append _ _
    · rw [Progress.push_of_unraised (Bool.eq_false_iff.mpr raised)]
      exact List.prefix_rfl
  · by_cases raised : progress.look.signal.raised = true
    · rw [Progress.push_of_raised tied raised, raised] at unraised
      exact Bool.noConfusion unraised
    · rw [Progress.push_of_unraised (Bool.eq_false_iff.mpr raised)]
      rfl

/-- What comes after a stop is not reported; the signal has been raised then. -/
theorem stopped {findings : List Finding} {before after : Progress}
    (reports : Reports findings before (.stopped, after)) (others : List Finding) :
    Reports (findings ++ others) before (.stopped, after) where
  moves := reports.moves
  within := by
    rw [← List.append_assoc]
    exact reports.within.trans (List.prefix_append _ _)
  complete := fun unraised => Flow.noConfusion (reports.complete unraised).1

theorem trans {first second : List Finding} {before middle : Progress} {flow : Flow}
    {result : Flow × Progress} (tied : before.reporter.tied = true)
    (former : Reports first before (flow, middle)) (latter : Reports second middle result) :
    Reports (first ++ second) before result where
  moves := former.moves.trans latter.moves
  within := by
    rw [← List.append_assoc]
    by_cases raised : middle.signal.raised = true
    · -- The reporter is closed already, so that the second part adds nothing.
      rw [latter.moves.closed (former.moves.tied.trans tied) raised]
      exact former.within.trans (List.prefix_append _ _)
    · rw [← (former.complete (Bool.eq_false_iff.mpr raised)).2]
      exact latter.within
  complete := by
    intro unraised
    obtain ⟨goesOn, added⟩ := latter.complete unraised
    rw [added, (former.complete (latter.moves.signal.unraised unraised)).2, List.append_assoc]
    exact ⟨goesOn, rfl⟩

/-- Two parts of a pass report the findings of both. -/
theorem andThen {first second : List Finding} {before : Progress} {result : Flow × Progress}
    {next : Progress → Flow × Progress} (tied : before.reporter.tied = true)
    (former : Reports first before result)
    (latter : ∀ progress : Progress, progress.reporter.tied = true →
      Reports second progress (next progress)) :
    Reports (first ++ second) before (result.1.andThen next result.2) := by
  obtain ⟨flow, middle⟩ := result
  cases flow with
  | stopped => exact former.stopped second
  | goesOn => exact former.trans tied (latter middle (former.moves.tied.trans tied))

/-- Findings that are submitted one after the other are reported in this order. -/
theorem pushAll {progress : Progress} (tied : progress.reporter.tied = true)
    (findings : List Finding) :
    Reports findings progress (.goesOn, progress.pushAll findings) := by
  induction findings generalizing progress with
  | nil => exact nothing progress
  | cons finding findings ih =>
      have first := push tied finding
      exact first.trans tied (ih (first.moves.tied.trans tied))

/-- A part that reports nothing leaves the findings as they are. -/
theorem findings_of_nil {before : Progress} {result : Flow × Progress}
    (reports : Reports [] before result) :
    result.2.reporter.findings = before.reporter.findings := by
  have within := reports.within
  rw [List.append_nil] at within
  exact within.eq_of_length_le reports.moves.findings.length_le

end Reports

namespace Engine

variable (engine : Engine) (context : Context)

/-- A traversal reports what dispatch reports at its nodes, in their order. -/
theorem traverse_reports {findings : Node → List Finding}
    (dispatch : ∀ node progress, progress.reporter.tied = true →
      Reports (findings node) progress (engine.registry.dispatch context node progress))
    {progress : Progress} (tied : progress.reporter.tied = true) (nodes : List Node) :
    Reports (nodes.flatMap findings) progress (engine.traverse context progress nodes) := by
  induction nodes generalizing progress with
  | nil => exact .nothing progress
  | cons node nodes ih =>
      have looked := progress.signal.before_look
      rw [traverse_cons, List.flatMap_cons]
      cases raised : progress.look.signal.raised with
      | true =>
          have stop : Reports [] progress (.stopped, progress.look) :=
            .of_signal looked fun unraised => absurd (unraised.symm.trans raised) nofun
          exact stop.stopped _
      | false =>
          have look : Reports [] progress (.goesOn, progress.look) := .of_signal looked fun _ => rfl
          have still : progress.look.reporter.tied = true := tied
          have rest := (dispatch node progress.look still).andThen still fun _ => ih
          change Reports ([] ++ _) progress _
          exact look.trans tied rest

/-- A traversal whose checkers leave a quiet signal alone at its nodes does so too. -/
theorem traverse_quiet (nodes : List Node)
    (dispatch : ∀ node ∈ nodes, ∀ progress : Progress, progress.signal = .quiet →
      (engine.registry.dispatch context node progress).2.signal = .quiet)
    {progress : Progress} (quiet : progress.signal = .quiet) :
    (engine.traverse context progress nodes).2.signal = .quiet := by
  induction nodes generalizing progress with
  | nil => exact quiet
  | cons node nodes ih =>
      have looked : progress.look.signal = .quiet := by
        rw [Progress.look, quiet]
        rfl
      have next := dispatch node List.mem_cons_self progress.look looked
      have rest := fun other member => dispatch other (List.mem_cons_of_mem _ member)
      rw [traverse_cons, looked]
      change ((engine.registry.dispatch context node progress.look).1.andThen _
        (engine.registry.dispatch context node progress.look).2).2.signal = .quiet
      cases (engine.registry.dispatch context node progress.look).1 with
      | stopped => exact next
      | goesOn => exact ih rest next

end Engine

end TreeLint
