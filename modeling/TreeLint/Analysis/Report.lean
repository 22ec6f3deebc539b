import TreeLint.Analysis.Engine

/-!
# Reports

What a host is told about findings and outcomes, as JSON values: the findings themselves together
with their lines and with what a host asks of them first.
-/

namespace TreeLint

def Finding.lines (findings : List Finding) : Json :=
  .ofList (fun finding => .string finding.text) findings

/-- The members of the report on a finding; absent for a finding that is about no bytes. -/
def Finding.report? (finding : Finding) : Option (List (String × Json)) := do
  let span ← finding.span?
  return [
    ("json", finding.toJson),
    ("display", .string finding.text),
    ("span", .ofSpan span),
    ("safe", .bool finding.hasSafeFixes)]

/-- The members of the report on what has been reported; absent when there is none on one of the
findings. -/
def Reporter.report? (reporter : Reporter) : Option (List (String × Json)) := do
  let findings ← reporter.findings.mapM Finding.report?
  return [
    ("diagnostics", .ofList .object findings),
    ("failures", .ofList Failure.toJson reporter.failures)]

def Outcome.report (outcome : Outcome) : List (String × Json) := [
  ("file", .string outcome.file),
  ("diagnostics", .ofList Finding.toJson outcome.findings),
  ("display", Finding.lines outcome.findings),
  ("failures", .ofList Failure.toJson outcome.failures),
  ("cancelled", .bool outcome.cancelled),
  ("has_findings", .bool outcome.hasFindings)]

end TreeLint
