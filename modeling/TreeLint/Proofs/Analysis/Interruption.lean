import TreeLint.Proofs.Rule.Builtin

/-!
# Interrupted passes of the built-in rules

The host may raise the signal of a pass at any time: before the pass begins, between any two looks
at the signal, or while it answers a query. The plan of a signal and a model that raises it cover
all of these, because nothing but a look takes notice of the signal. Whatever the host does, a pass
of the built-in rules reports a first part of what it would have reported undisturbed, and all of
it if it does not say that it was stopped (`TreeLint.Engine.interrupted_findings`). The last point
holds because a node that a built-in rule has something to say about has nodes below it, so that a
look always comes after a dropped finding.
-/

namespace TreeLint.Engine

variable {settings : Settings} {unit : AnalysisUnit} {signal : Signal}

/-- A pass that was not stopped has reported everything. -/
theorem findings_of_goesOn (goesOn : ((builtin settings).pass unit signal).1 = .goesOn) :
    ((builtin settings).pass unit signal).2.reporter.findings = complete settings unit := by
  obtain ⟨before, last, split, childless⟩ := unit.tree.root.descendants_eq_append
  have nothing := Builtin.findings_of_childless ⟨unit, settings⟩ childless
  rw [pass, split] at goesOn ⊢
  obtain ⟨reached, run, unraised, whole⟩ := traverse_goesOn goesOn
  -- Up to the last node nothing was dropped, and there nothing is reported.
  have start : (Progress.start signal true).reporter.tied = true := rfl
  have reported := (builtin settings).traverse_reports ⟨unit, settings⟩
    (Builtin.dispatch_reports ⟨unit, settings⟩) start before
  change (builtin settings).traverse ⟨unit, settings⟩ _ before = _ at run
  rw [run] at reported
  have tied : reached.look.reporter.tied = true := reported.moves.tied
  have atLast := Builtin.dispatch_reports ⟨unit, settings⟩ last reached.look tied
  rw [nothing] at atLast
  rw [whole, complete, split, List.flatMap_append, List.flatMap_singleton, nothing,
    List.append_nil]
  have unraisedBefore := reached.signal.before_look.unraised unraised
  exact atLast.findings_of_nil.trans (reported.complete unraisedBefore).2

/-- A pass whose signal is raised from the start does not begin. -/
theorem pass_of_raised (engine : Engine) (unit : AnalysisUnit) {signal : Signal}
    (raised : signal.raised = true) :
    engine.pass unit signal = (.stopped, .start signal true) := by
  have looked : (Progress.start signal true).look = .start signal true :=
    congrArg (Progress.start · true) (Signal.look_of_raised raised)
  change engine.traverse _ _ (unit.tree.root :: _) = _
  rw [traverse_cons, looked]
  exact if_pos raised

/-- A host that never raises the signal is a silent one. -/
theorem silent_of_unraising (unraising : ∀ id, unit.model.raises id = false) :
    unit.silent = unit := by
  obtain ⟨path, tree, ⟨boundMethod?, method?, type?, raises⟩, version⟩ := unit
  have never : raises = fun _ => false := funext unraising
  rw [never]
  rfl

/-- With a host that never raises the signal a pass finds everything, or nothing if the signal was
raised from the start. -/
theorem findings_of_unraising (unraising : ∀ id, unit.model.raises id = false) (raised : Bool) :
    ((builtin settings).analyze unit (.ofRaised raised)).1.findings =
      if raised then [] else Finding.sorted (complete settings unit) := by
  rw [analyze_findings]
  cases raised with
  | true =>
      have stopped : (Signal.ofRaised true).raised = true := rfl
      rw [pass_of_raised _ unit stopped]
      rfl
  | false =>
      have whole := findings_silent settings unit
      rw [silent_of_unraising unraising] at whole
      exact congrArg Finding.sorted whole

/-- **What an interrupted pass reports.** Whatever plan the host has and whichever queries raise
the signal, the reported findings are a first part of those of the same pass with a host that
leaves the signal alone. An outcome that was not stopped has the same findings as that of the
undisturbed pass. A signal that was raised from the start stops the pass with no findings. -/
theorem interrupted_findings (settings : Settings) (unit : AnalysisUnit) (signal : Signal) :
    ((builtin settings).pass unit signal).2.reporter.findings <+:
        ((builtin settings).pass unit.silent .quiet).2.reporter.findings ∧
      (((builtin settings).analyze unit signal).1.cancelled = false →
        ((builtin settings).analyze unit signal).1.findings =
          ((builtin settings).analyze unit.silent .quiet).1.findings) ∧
      (signal.raised = true →
        ((builtin settings).analyze unit signal).1.cancelled = true ∧
          ((builtin settings).analyze unit signal).1.findings = []) := by
  refine ⟨?_, ?_, ?_⟩
  · rw [findings_silent]
    exact (pass_reports settings unit signal).within
  · intro finished
    have goesOn := (analyze_not_cancelled_iff _ _ _).mp finished
    rw [analyze_findings, analyze_findings, findings_of_goesOn goesOn, findings_silent]
  · intro raised
    rw [analyze_cancelled_iff, analyze_findings, pass_of_raised _ unit raised]
    exact ⟨rfl, rfl⟩

/-- An attribute whose argument list is empty. -/
def marked : AnalysisUnit :=
  .withoutSemantics "Marked.cs" ⟨.attribute, [
    .node .identifierName [.token .identifier "Obsolete"],
    .node .attributeArgumentList [.token .leftParen "(", .token .rightParen ")"]]⟩

theorem interrupted_marked :
    (((builtin .default).analyze marked ⟨false, some 5⟩).1.cancelled = false ∧
      ((builtin .default).analyze marked ⟨false, some 5⟩).1.findings =
        ((builtin .default).analyze marked.silent .quiet).1.findings) ∧
    ((Signal.ofRaised true).raised = true ∧
      ((builtin .default).analyze marked (.ofRaised true)).1.findings = []) := by
  have finished : ((builtin .default).analyze marked ⟨false, some 5⟩).1.cancelled = false := by
    decide
  exact ⟨⟨finished, (interrupted_findings .default marked ⟨false, some 5⟩).2.1 finished⟩,
    rfl, ((interrupted_findings .default marked (.ofRaised true)).2.2 rfl).2⟩

end TreeLint.Engine
