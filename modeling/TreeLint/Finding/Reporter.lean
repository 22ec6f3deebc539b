import TreeLint.Cancellation
import TreeLint.Finding.Basic
import TreeLint.Finding.Failure

/-!
# Reporters

A reporter collects the findings and failures of one pass in the order in which they come in and
keeps duplicates. A reporter that is tied to the signal of the pass drops findings that come after
the signal has been raised. Failures are always kept.
-/

namespace TreeLint

/-- The findings and failures of a pass so far, and whether the reporter is tied to the signal of
the pass. -/
structure Reporter where
  findings : List Finding
  failures : List Failure
  tied : Bool

/-- A reporter that holds nothing. -/
def Reporter.empty (tied : Bool) : Reporter :=
  ⟨[], [], tied⟩

/-- How far a pass has come: the state of its signal and what has been reported. -/
structure Progress where
  signal : Signal
  reporter : Reporter

namespace Progress

/-- A pass that has not begun. -/
def start (signal : Signal) (tied : Bool) : Progress :=
  ⟨signal, .empty tied⟩

/-- Looks at the signal of the pass. -/
def look (progress : Progress) : Progress :=
  { progress with signal := progress.signal.look }

def accept (progress : Progress) (finding : Finding) : Progress :=
  { progress with
    reporter := { progress.reporter with findings := progress.reporter.findings ++ [finding] } }

/-- Submits a finding, which is a look at the signal. -/
def push (progress : Progress) (finding : Finding) : Progress :=
  let progress := progress.look
  if progress.reporter.tied && progress.signal.raised then progress else progress.accept finding

/-- Submits findings one after the other. -/
def pushAll (progress : Progress) (findings : List Finding) : Progress :=
  findings.foldl push progress

/-- Submits a finding of a described rule with properties. -/
def report (progress : Progress) (descriptor : Descriptor) (severity : Severity)
    (location : Location) (args : List String) (properties : Dict String) : Progress :=
  progress.push ((Finding.ofRule descriptor severity location args).withProperties properties)

def recordFailure (progress : Progress) (failure : Failure) : Progress :=
  { progress with
    reporter := { progress.reporter with failures := progress.reporter.failures ++ [failure] } }

/-- Raises the signal of the pass. -/
def raise (progress : Progress) : Progress :=
  { progress with signal := progress.signal.raise }

/-- Number of findings so far. -/
def findingCount (progress : Progress) : Nat :=
  progress.reporter.findings.length

def failureCount (progress : Progress) : Nat :=
  progress.reporter.failures.length

end Progress

end TreeLint
