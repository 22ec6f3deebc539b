import TreeLint.Proofs.Finding.Order
import TreeLint.Proofs.Rule.Interactive
import TreeLint.Proofs.Tree.Placement

/-!
# Findings that are dropped

A tied reporter drops the findings that come after the signal has been raised. Whoever reads an
outcome learns of that from its flag, except in one place: the signal is looked at before each
node and not after the last one. A pass loses findings without saying so exactly when a checker of
the last node has one dropped in a pass that has come so far unraised and is not stopped there
(`TreeLint.Engine.losesSilently_iff_dropsAtLast`).
-/

namespace TreeLint.Engine

variable (engine : Engine) (unit : AnalysisUnit) (signal : Signal)

/-- The pass over a unit with a reporter that never drops a finding. -/
def keepingPass : Flow × Progress :=
  engine.traverse (engine.context unit) (.start signal false) unit.tree.root.descendants

/-- The outcome says nothing of a stop but misses findings that the pass has reported. -/
def LosesSilently : Prop :=
  (engine.analyze unit signal).1.cancelled = false ∧
    (engine.analyze unit signal).1.findings ≠
      Finding.sorted (engine.keepingPass unit signal).2.reporter.findings

/-- The pass reaches its last node with the signal unraised, is not stopped there either, and a
checker of the last node has a finding dropped that an untied reporter keeps. -/
def DropsAtLast : Prop :=
  ∃ before last reached,
    unit.tree.root.descendants = before ++ [last] ∧
    engine.traverse (engine.context unit) (.start signal true) before = (.goesOn, reached) ∧
    reached.look.signal.raised = false ∧
    (engine.registry.dispatch (engine.context unit) last reached.look).1 = .goesOn ∧
    (engine.registry.dispatch (engine.context unit) last reached.look).2.findingCount <
      (engine.registry.dispatch (engine.context unit) last reached.look.untied).2.findingCount

variable {engine unit signal}

/-- Up to a look that finds the signal unraised nothing has been dropped. -/
theorem traverse_untied (interactive : engine.registry.IsInteractive) {context : Context}
    {progress reached : Progress} {nodes : List Node} (tied : progress.reporter.tied = true)
    (run : engine.traverse context progress nodes = (.goesOn, reached))
    (unraised : reached.look.signal.raised = false) :
    engine.traverse context progress.untied nodes = (.goesOn, reached.untied) := by
  have parallel := (engine.traverse_interactive context interactive nodes).untied progress tied
  rw [run] at parallel
  rcases parallel with same | behind
  · exact same
  · have raised := reached.signal.before_look behind.raised
    rw [show reached.signal.look = reached.look.signal from rfl, unraised] at raised
    exact absurd raised Bool.false_ne_true

/-- A tied pass has accepted fewer findings than the same pass with an untied reporter exactly if
its sorted findings are not those of the untied pass. -/
theorem sorted_ne_iff_fewer {step : Progress → Flow × Progress} (interactive : Interactive step)
    {progress : Progress} (tied : progress.reporter.tied = true) :
    Finding.sorted (step progress).2.reporter.findings ≠
        Finding.sorted (step progress.untied).2.reporter.findings ↔
      (step progress).2.findingCount < (step progress.untied).2.findingCount := by
  rcases interactive.untied progress tied with same | behind
  · rw [same]
    exact ⟨fun unequal => absurd rfl unequal, fun fewer => absurd fewer (Nat.lt_irrefl _)⟩
  · refine ⟨fun _ => behind.fewer, fun fewer equal => ?_⟩
    have lengths := congrArg List.length equal
    rw [Finding.length_sorted, Finding.length_sorted] at lengths
    exact absurd fewer (Nat.not_lt_of_le (Nat.le_of_eq lengths.symm))

/-- A pass that comes to its last node unraised is the check of that node from there on, and so is
the pass that keeps what is dropped. So the two passes differ only by what is dropped at that
node. -/
theorem pass_of_reached (interactive : engine.registry.IsInteractive) {before : List Node}
    {last : Node} {reached : Progress} (split : unit.tree.root.descendants = before ++ [last])
    (run : engine.traverse (engine.context unit) (.start signal true) before = (.goesOn, reached))
    (unraised : reached.look.signal.raised = false) :
    engine.pass unit signal = engine.registry.dispatch (engine.context unit) last reached.look ∧
      (Finding.sorted (engine.pass unit signal).2.reporter.findings ≠
          Finding.sorted (engine.keepingPass unit signal).2.reporter.findings ↔
        (engine.registry.dispatch (engine.context unit) last reached.look).2.findingCount <
          (engine.registry.dispatch (engine.context unit) last
            reached.look.untied).2.findingCount) := by
  have whole : engine.pass unit signal =
      engine.registry.dispatch (engine.context unit) last reached.look := by
    rw [pass, split]
    exact traverse_of_reached run unraised
  have keeping : engine.keepingPass unit signal =
      engine.registry.dispatch (engine.context unit) last reached.look.untied := by
    rw [keepingPass, split]
    exact traverse_of_reached (traverse_untied interactive rfl run unraised) unraised
  have tied : reached.look.reporter.tied = true := by
    have moved := (engine.traverse_interactive (engine.context unit) interactive before).movesTo
      (.start signal true)
    rw [run] at moved
    exact moved.tied
  rw [keeping, whole]
  exact ⟨rfl, sorted_ne_iff_fewer (interactive.dispatch _ last) tied⟩

/-- **Where findings are lost without notice.** For every registry of checkers that get hold of
the pass only through its operations, every unit and every plan of the host, an outcome that does
not say that it was stopped misses a reported finding exactly if one was dropped at the last
node. -/
theorem losesSilently_iff_dropsAtLast (interactive : engine.registry.IsInteractive)
    (unit : AnalysisUnit) (signal : Signal) :
    engine.LosesSilently unit signal ↔ engine.DropsAtLast unit signal := by
  constructor
  · rintro ⟨finished, misses⟩
    have goesOn := (engine.analyze_not_cancelled_iff unit signal).mp finished
    obtain ⟨before, last, split, -⟩ := unit.tree.root.descendants_eq_append
    have passes := goesOn
    rw [pass, split] at passes
    obtain ⟨reached, run, unraised, -⟩ := traverse_goesOn passes
    obtain ⟨whole, missing⟩ := pass_of_reached interactive split run unraised
    rw [whole] at goesOn
    exact ⟨before, last, reached, split, run, unraised, goesOn, missing.mp misses⟩
  · rintro ⟨before, last, reached, split, run, unraised, goesOn, fewer⟩
    obtain ⟨whole, missing⟩ := pass_of_reached interactive split run unraised
    rw [← whole] at goesOn
    exact ⟨(engine.analyze_not_cancelled_iff unit signal).mpr goesOn, missing.mpr fewer⟩

/-- The rule of a checker that raises the signal. -/
def tripwire : Descriptor where
  id := "style/tripwire"
  code := "CL9100"
  name := "Tripwire"
  category := .style
  defaultSeverity := .warning
  enabledByDefault := true
  message := "Tripwire"

/-- An engine whose only checker first raises the signal and then reports, at each node of a
kind. -/
def ofTripwire (kind : NodeKind) : Engine where
  registry := Registry.empty.registerChecker <|
    Script.checker tripwire [.node kind] [.raise, .report [] .empty]
  settings := fun _ => .default

/-- A file with nothing but an empty statement, and no node below its root. -/
def emptyStatement : AnalysisUnit :=
  .withoutSemantics "Last.cs" ⟨.compilationUnit, [.token .semicolon ";"]⟩

theorem ofTripwire_interactive (kind : NodeKind) :
    (ofTripwire kind).registry.IsInteractive := by
  intro registration member
  rw [List.mem_singleton.mp member]
  exact Script.checker_interactive tripwire _ _

/-- The finding at the only node is dropped, and no look comes after it. -/
theorem ofTripwire_losesSilently :
    (ofTripwire .compilationUnit).LosesSilently emptyStatement .quiet := by
  refine ⟨by decide, fun equal => ?_⟩
  have lengths := congrArg List.length equal
  exact absurd lengths (by decide)

theorem ofTripwire_dropsAtLast : (ofTripwire .compilationUnit).registry.IsInteractive ∧
    (ofTripwire .compilationUnit).DropsAtLast emptyStatement .quiet :=
  ⟨ofTripwire_interactive _,
    (losesSilently_iff_dropsAtLast (ofTripwire_interactive _) _ _).mp ofTripwire_losesSilently⟩

/-- So it is not true that an outcome always tells of findings that were dropped. -/
theorem not_forall_tellsOfDrops : ¬ ∀ engine : Engine, engine.registry.IsInteractive →
    ∀ unit signal, ¬ engine.LosesSilently unit signal := by
  intro always
  exact always (ofTripwire .compilationUnit) (ofTripwire_interactive _) emptyStatement .quiet
    ofTripwire_losesSilently

end TreeLint.Engine
