import TreeLint.Proofs.Pass.Progress

/-!
# What a checker can do with a pass

A checker gets hold of a pass only through the operations of the pass: it can look at the signal,
raise it, submit findings, record failures, and read what has been reported. An interaction is a
program over these operations, and a function of the progress that some interaction carries out is
interactive. Interactive functions are closed under sequencing (`TreeLint.Interactive.bind`).

Two facts hold of everything interactive: it moves the pass on
(`TreeLint.Interactive.movesTo`), and it does the same with a tied and with an untied reporter as
long as nothing is dropped (`TreeLint.Interactive.untied`).
-/

namespace TreeLint

variable {α β : Type}

/-- A program over the operations of a pass, ending with a value. -/
inductive Interaction (α : Type) where
  | finish (value : α)
  | look (next : Bool → Interaction α)
  | raise (next : Interaction α)
  | push (finding : Finding) (next : Interaction α)
  | recordFailure (failure : Failure) (next : Interaction α)
  | read (next : List Finding → List Failure → Interaction α)

namespace Interaction

/-- Carries out an interaction. A look answers whether the signal was found raised. -/
def run : Interaction α → Progress → α × Progress
  | .finish value, progress => (value, progress)
  | .look next, progress => (next progress.look.signal.raised).run progress.look
  | .raise next, progress => next.run progress.raise
  | .push finding next, progress => next.run (progress.push finding)
  | .recordFailure failure next, progress => next.run (progress.recordFailure failure)
  | .read next, progress =>
      (next progress.reporter.findings progress.reporter.failures).run progress

/-- One interaction after the other; the second depends on how the first ends. -/
def bind (next : α → Interaction β) : Interaction α → Interaction β
  | .finish value => next value
  | .look rest => .look fun raised => (rest raised).bind next
  | .raise rest => .raise (rest.bind next)
  | .push finding rest => .push finding (rest.bind next)
  | .recordFailure failure rest => .recordFailure failure (rest.bind next)
  | .read rest => .read fun findings failures => (rest findings failures).bind next

theorem run_bind (next : α → Interaction β) (interaction : Interaction α) (progress : Progress) :
    (interaction.bind next).run progress =
      (next (interaction.run progress).1).run (interaction.run progress).2 := by
  induction interaction generalizing progress with
  | finish value => rfl
  | look rest ih => exact ih _ _
  | raise rest ih => exact ih _
  | push finding rest ih => exact ih _
  | recordFailure failure rest ih => exact ih _
  | read rest ih => exact ih _ _ _

/-- Every operation moves the pass on, and so does an interaction. -/
theorem movesTo (interaction : Interaction α) (progress : Progress) :
    progress.MovesTo (interaction.run progress).2 := by
  induction interaction generalizing progress with
  | finish value => exact .refl _
  | look rest ih => exact progress.movesTo_look.trans (ih _ _)
  | raise rest ih => exact progress.movesTo_raise.trans (ih _)
  | push finding rest ih => exact (progress.movesTo_push finding).trans (ih _)
  | recordFailure failure rest ih => exact (progress.movesTo_recordFailure failure).trans (ih _)
  | read rest ih => exact ih _ _ _

/-- With a tied reporter an interaction either does what it does with an untied one, or it leaves
the tied pass behind. -/
theorem untied (interaction : Interaction α) (progress : Progress)
    (tied : progress.reporter.tied = true) :
    interaction.run progress.untied =
        ((interaction.run progress).1, (interaction.run progress).2.untied) ∨
      (interaction.run progress).2.Behind (interaction.run progress.untied).2 := by
  induction interaction generalizing progress with
  | finish value => exact .inl rfl
  | look rest ih => exact ih _ progress.look tied
  | raise rest ih => exact ih progress.raise tied
  | recordFailure failure rest ih => exact ih (progress.recordFailure failure) tied
  | read rest ih => exact ih _ _ progress tied
  | push finding rest ih =>
      by_cases raised : progress.look.signal.raised = true
      · exact .inr ((Progress.behind_of_dropped tied raised finding).movesTo (rest.movesTo _)
          (rest.movesTo _))
      · -- The two reporters take the same finding, so that the rest runs from the same progress.
        have accepted := Progress.push_of_unraised (Bool.eq_false_iff.mpr raised) finding
        have kept : (progress.push finding).untied = progress.untied.push finding := by
          rw [accepted, Progress.push_untied]
          rfl
        have stillTied : (progress.push finding).reporter.tied = true := by
          rw [accepted]
          exact tied
        have rest := ih (progress.push finding) stillTied
        rw [kept] at rest
        exact rest

end Interaction

/-- Some interaction carries out the function. -/
def Interactive (step : Progress → α × Progress) : Prop :=
  ∃ interaction : Interaction α, interaction.run = step

namespace Interactive

theorem finish (value : α) : Interactive fun progress => (value, progress) :=
  ⟨.finish value, rfl⟩

theorem look : Interactive fun progress => (progress.look.signal.raised, progress.look) :=
  ⟨.look .finish, rfl⟩

theorem raise : Interactive fun progress => ((), progress.raise) :=
  ⟨.raise (.finish ()), rfl⟩

theorem push (finding : Finding) : Interactive fun progress => ((), progress.push finding) :=
  ⟨.push finding (.finish ()), rfl⟩

theorem recordFailure (failure : Failure) :
    Interactive fun progress => ((), progress.recordFailure failure) :=
  ⟨.recordFailure failure (.finish ()), rfl⟩

/-- What has been reported may decide how to go on. -/
theorem read {step : List Finding → List Failure → Progress → α × Progress}
    (interactive : ∀ findings failures, Interactive (step findings failures)) :
    Interactive fun progress =>
      step progress.reporter.findings progress.reporter.failures progress := by
  refine ⟨.read fun findings failures => (interactive findings failures).choose, ?_⟩
  funext progress
  exact congrFun (interactive _ _).choose_spec progress

theorem bind {first : Progress → α × Progress} (former : Interactive first)
    (second : α → Progress → β × Progress) (latter : ∀ value, Interactive (second value)) :
    Interactive fun progress => second (first progress).1 (first progress).2 := by
  obtain ⟨interaction, rfl⟩ := former
  refine ⟨interaction.bind fun value => (latter value).choose, ?_⟩
  funext progress
  rw [Interaction.run_bind]
  exact congrFun (latter _).choose_spec _

variable {step : Progress → α × Progress}

theorem of_eq {other : Progress → α × Progress} (interactive : Interactive step)
    (same : ∀ progress, other progress = step progress) : Interactive other := by
  rw [funext same]
  exact interactive

/-- A look may decide not to go on. -/
theorem unlessRaised (interactive : Interactive step) (value : α) :
    Interactive fun progress =>
      if progress.look.signal.raised then (value, progress.look) else step progress.look := by
  refine look.bind (fun raised progress => if raised then (value, progress) else step progress) ?_
  intro raised
  cases raised with
  | true => exact .finish value
  | false => exact interactive

theorem movesTo (interactive : Interactive step) (progress : Progress) :
    progress.MovesTo (step progress).2 := by
  obtain ⟨interaction, rfl⟩ := interactive
  exact interaction.movesTo progress

theorem untied (interactive : Interactive step) (progress : Progress)
    (tied : progress.reporter.tied = true) :
    step progress.untied = ((step progress).1, (step progress).2.untied) ∨
      (step progress).2.Behind (step progress.untied).2 := by
  obtain ⟨interaction, rfl⟩ := interactive
  exact interaction.untied progress tied

end Interactive

end TreeLint
