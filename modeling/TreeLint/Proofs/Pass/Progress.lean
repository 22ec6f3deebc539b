import TreeLint.Finding.Reporter

/-!
# How a pass moves on

Nothing that happens in a pass lowers its signal again, takes back a finding or a failure, or
unties its reporter, and a tied reporter accepts no finding once the signal is raised
(`TreeLint.Progress.MovesTo`). A reporter that is not tied keeps what a tied one drops; as soon as
a finding has been dropped, the tied pass is behind for good (`TreeLint.Progress.Behind`).
-/

namespace TreeLint

namespace Signal

/-- What was raised earlier is raised later. -/
def Before (earlier later : Signal) : Prop :=
  earlier.raised = true → later.raised = true

theorem Before.refl (signal : Signal) : signal.Before signal :=
  fun raised => raised

theorem Before.trans {first second third : Signal} (former : first.Before second)
    (latter : second.Before third) : first.Before third :=
  fun raised => latter (former raised)

theorem look_of_raised {signal : Signal} (raised : signal.raised = true) :
    signal.look = signal := by
  simp only [look, raised, ↓reduceIte]

theorem before_look (signal : Signal) : signal.Before signal.look := by
  intro raised
  rw [look_of_raised raised]
  exact raised

theorem before_raise (signal : Signal) : signal.Before signal.raise :=
  fun _ => rfl

theorem Before.unraised {earlier later : Signal} (before : earlier.Before later)
    (unraised : later.raised = false) : earlier.raised = false := by
  refine Bool.eq_false_iff.mpr fun raised => ?_
  rw [before raised] at unraised
  exact Bool.noConfusion unraised

end Signal

namespace Progress

/-- The same progress with a reporter that is not tied to the signal. -/
def untied (progress : Progress) : Progress :=
  { progress with reporter := { progress.reporter with tied := false } }

/-- A tied reporter drops a finding that comes after the signal has been raised. -/
theorem push_of_raised {progress : Progress} (tied : progress.reporter.tied = true)
    (raised : progress.look.signal.raised = true) (finding : Finding) :
    progress.push finding = progress.look := by
  have closed : (progress.look.reporter.tied && progress.look.signal.raised) = true := by
    rw [raised, Bool.and_true]
    exact tied
  simp only [push, closed, ↓reduceIte]

theorem push_of_unraised {progress : Progress} (unraised : progress.look.signal.raised = false)
    (finding : Finding) : progress.push finding = progress.look.accept finding := by
  simp only [push, unraised, Bool.and_false, Bool.false_eq_true, ↓reduceIte]

theorem push_untied (progress : Progress) (finding : Finding) :
    progress.untied.push finding = progress.untied.look.accept finding := rfl

theorem look_of_quiet {progress : Progress} (quiet : progress.signal = .quiet) :
    progress.look = progress := by
  rw [look, quiet]
  change { progress with signal := .quiet } = progress
  rw [← quiet]

/-- A quiet signal lets every finding pass. -/
theorem pushAll_of_quiet {progress : Progress} (quiet : progress.signal = .quiet)
    (findings : List Finding) : progress.pushAll findings =
      { progress with
        reporter := { progress.reporter with
          findings := progress.reporter.findings ++ findings } } := by
  induction findings generalizing progress with
  | nil =>
      rw [List.append_nil]
      rfl
  | cons finding findings ih =>
      have unraised : progress.look.signal.raised = false := by
        rw [look_of_quiet quiet, quiet]
        rfl
      have accepted : progress.push finding = progress.accept finding := by
        rw [push_of_unraised unraised, look_of_quiet quiet]
      change (progress.push finding).pushAll findings = _
      rw [accepted, ih (show (progress.accept finding).signal = .quiet from quiet)]
      simp only [accept, List.append_assoc, List.singleton_append]

/-- How the progress of a pass can change. -/
structure MovesTo (earlier later : Progress) : Prop where
  signal : earlier.signal.Before later.signal
  tied : later.reporter.tied = earlier.reporter.tied
  findings : earlier.reporter.findings <+: later.reporter.findings
  failures : earlier.reporter.failures <+: later.reporter.failures
  closed : earlier.reporter.tied = true → earlier.signal.raised = true →
    later.reporter.findings = earlier.reporter.findings

theorem MovesTo.refl (progress : Progress) : progress.MovesTo progress where
  signal := .refl _
  tied := rfl
  findings := List.prefix_rfl
  failures := List.prefix_rfl
  closed := fun _ _ => rfl

theorem MovesTo.trans {first second third : Progress} (former : first.MovesTo second)
    (latter : second.MovesTo third) : first.MovesTo third where
  signal := former.signal.trans latter.signal
  tied := latter.tied.trans former.tied
  findings := former.findings.trans latter.findings
  failures := former.failures.trans latter.failures
  closed := fun tied raised =>
    (latter.closed (former.tied.trans tied) (former.signal raised)).trans
      (former.closed tied raised)

theorem movesTo_signal (progress : Progress) {signal : Signal}
    (later : progress.signal.Before signal) : progress.MovesTo { progress with signal } where
  signal := later
  tied := rfl
  findings := List.prefix_rfl
  failures := List.prefix_rfl
  closed := fun _ _ => rfl

theorem movesTo_look (progress : Progress) : progress.MovesTo progress.look :=
  progress.movesTo_signal progress.signal.before_look

theorem movesTo_raise (progress : Progress) : progress.MovesTo progress.raise :=
  progress.movesTo_signal progress.signal.before_raise

theorem movesTo_recordFailure (progress : Progress) (failure : Failure) :
    progress.MovesTo (progress.recordFailure failure) where
  signal := .refl _
  tied := rfl
  findings := List.prefix_rfl
  failures := List.prefix_append _ _
  closed := fun _ _ => rfl

theorem movesTo_push (progress : Progress) (finding : Finding) :
    progress.MovesTo (progress.push finding) := by
  refine progress.movesTo_look.trans ?_
  by_cases raised : progress.look.signal.raised = true
  · by_cases tied : progress.reporter.tied = true
    · rw [push_of_raised tied raised]
      exact .refl _
    · have accepts : progress.push finding = progress.look.accept finding := by
        have opened : progress.look.reporter.tied = false := Bool.eq_false_iff.mpr tied
        simp only [push, opened, Bool.false_and, Bool.false_eq_true, ↓reduceIte]
      rw [accepts]
      exact ⟨.refl _, rfl, List.prefix_append _ _, List.prefix_rfl,
        fun bound => absurd bound tied⟩
  · rw [push_of_unraised (Bool.eq_false_iff.mpr raised)]
    exact ⟨.refl _, rfl, List.prefix_append _ _, List.prefix_rfl,
      fun _ bound => absurd bound raised⟩

/-- A pass with a tied reporter that has dropped a finding, beside the same pass with a reporter
that kept it. -/
structure Behind (dropping keeping : Progress) : Prop where
  raised : dropping.signal.raised = true
  tied : dropping.reporter.tied = true
  findings : dropping.reporter.findings <+: keeping.reporter.findings
  fewer : dropping.findingCount < keeping.findingCount

/-- A pass that is behind stays behind, whatever happens on either side. -/
theorem Behind.movesTo {dropping keeping dropped kept : Progress}
    (behind : dropping.Behind keeping) (onward : dropping.MovesTo dropped)
    (ahead : keeping.MovesTo kept) : dropped.Behind kept := by
  have same := onward.closed behind.tied behind.raised
  refine ⟨onward.signal behind.raised, onward.tied.trans behind.tied, ?_, ?_⟩
  · rw [same]
    exact behind.findings.trans ahead.findings
  · unfold findingCount
    rw [same]
    exact Nat.lt_of_lt_of_le behind.fewer ahead.findings.length_le

/-- A dropped finding leaves the tied pass behind. -/
theorem behind_of_dropped {progress : Progress} (tied : progress.reporter.tied = true)
    (raised : progress.look.signal.raised = true) (finding : Finding) :
    (progress.push finding).Behind (progress.untied.push finding) := by
  rw [push_of_raised tied raised, push_untied]
  refine ⟨raised, tied, List.prefix_append _ _, ?_⟩
  change progress.reporter.findings.length < (progress.reporter.findings ++ [finding]).length
  rw [List.length_append]
  exact Nat.lt_succ_self _

end Progress

end TreeLint
