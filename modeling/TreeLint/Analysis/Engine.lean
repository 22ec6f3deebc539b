import TreeLint.Rule.Registry

/-!
# Analysis

An engine walks the tree of a unit in preorder and lets the registered checkers check each node. It
looks at the signal of the pass before each node and stops when it is raised; what was reported
until then is kept. The findings of a pass are listed by their offsets, and those at one offset by
the ids of their rules; findings that agree in both keep the order in which they were reported.
-/

namespace TreeLint

/-- What the analysis of a unit has found, and whether it was stopped. -/
structure Outcome where
  file : String
  findings : List Finding
  failures : List Failure
  cancelled : Bool

namespace Outcome

def hasFindings (outcome : Outcome) : Bool :=
  !outcome.findings.isEmpty

def findingsFor (outcome : Outcome) (ruleId : String) : List Finding :=
  outcome.findings.filter (·.ruleId = ruleId)

end Outcome

/-- Whether a finding may stand before another one in a list. -/
def Finding.precedes (first second : Finding) : Bool :=
  first.location.offset < second.location.offset ||
    (first.location.offset = second.location.offset && first.ruleId ≤ second.ruleId)

/-- Puts a finding at its place in a list, before those that agree with it. -/
def Finding.place (finding : Finding) : List Finding → List Finding
  | [] => [finding]
  | head :: tail =>
      if finding.precedes head then finding :: head :: tail else head :: finding.place tail

/-- Findings in the order in which they are listed. -/
def Finding.sorted (findings : List Finding) : List Finding :=
  findings.foldr place []

/-- The registered checkers and the settings of each unit. -/
structure Engine where
  registry : Registry
  settings : AnalysisUnit → Settings

namespace Engine

/-- Lets the checkers check nodes one after the other, until the pass is to stop. -/
def traverse (engine : Engine) (context : Context) (progress : Progress) :
    List Node → Flow × Progress
  | [] => (.goesOn, progress)
  | node :: nodes =>
      let progress := progress.look
      if progress.signal.raised then (.stopped, progress)
      else
        match engine.registry.dispatch context node progress with
        | (.stopped, progress) => (.stopped, progress)
        | (.goesOn, progress) => engine.traverse context progress nodes

/-- The pass over a unit with a signal. -/
def pass (engine : Engine) (unit : AnalysisUnit) (signal : Signal) : Flow × Progress :=
  engine.traverse ⟨unit, engine.settings unit⟩ (.start signal true) unit.tree.root.descendants

/-- Analyzes a unit. The signal is given as the analysis leaves it. -/
def analyze (engine : Engine) (unit : AnalysisUnit) (signal : Signal) : Outcome × Signal :=
  let (flow, progress) := engine.pass unit signal
  let outcome : Outcome :=
    { file := unit.path
      findings := Finding.sorted progress.reporter.findings
      failures := progress.reporter.failures
      cancelled := flow = .stopped }
  (outcome, progress.signal)

/-- Analyzes units one after the other under one signal. -/
def analyzeAll (engine : Engine) (signal : Signal) : List AnalysisUnit → List Outcome
  | [] => []
  | unit :: units =>
      let (outcome, signal) := engine.analyze unit signal
      outcome :: engine.analyzeAll signal units

/-- Analyzes units, each with a signal of its own. -/
def analyzeEach (engine : Engine) (jobs : List (AnalysisUnit × Signal)) : List Outcome :=
  jobs.map fun (unit, signal) => (engine.analyze unit signal).1

end Engine

end TreeLint
