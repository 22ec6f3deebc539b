import TreeLint.Proofs.Pass.Progress
import TreeLint.Rule.Checker

/-!
# What a check contributes to a pass

A check that leaves a quiet signal alone adds findings and failures to a pass and ends with a
result; the findings get the severity of the rule (`TreeLint.Contribution.made`). Two reporters are
alike when they hold the same apart from severities, or apart from these and from what one rule has
reported, and they stay alike when both get the same contribution
(`TreeLint.Contribution.alike_made`).
-/

namespace TreeLint

/-- The finding with another severity. -/
def Finding.withSeverity (finding : Finding) (severity : Severity) : Finding :=
  { finding with severity }

/-- Two reporters hold the same, apart from severities and from what a hidden rule has reported. -/
structure Reporter.Alike (hidden : Option String) (first second : Reporter) : Prop where
  findings :
    (second.findings.filter (some ·.ruleId ≠ hidden)).map (·.withSeverity .info) =
      (first.findings.filter (some ·.ruleId ≠ hidden)).map (·.withSeverity .info)
  failures : second.failures.filter (some ·.ruleId ≠ hidden) =
    first.failures.filter (some ·.ruleId ≠ hidden)

namespace Reporter.Alike

theorem refl (hidden : Option String) (reporter : Reporter) : reporter.Alike hidden reporter where
  findings := rfl
  failures := rfl

theorem filter_none {α : Type} (ruleId : α → String) (items : List α) :
    items.filter (fun item => some (ruleId item) ≠ none) = items :=
  List.filter_eq_self.mpr fun _ _ => decide_eq_true (Option.some_ne_none _)

variable {first second : Reporter}

theorem length_findings (alike : first.Alike none second) :
    second.findings.length = first.findings.length := by
  have lengths := congrArg List.length alike.findings
  rw [filter_none Finding.ruleId, filter_none Finding.ruleId, List.length_map,
    List.length_map] at lengths
  exact lengths

theorem length_failures (alike : first.Alike none second) :
    second.failures.length = first.failures.length := by
  have lengths := congrArg List.length alike.failures
  rw [filter_none Failure.ruleId, filter_none Failure.ruleId] at lengths
  exact lengths

end Reporter.Alike

/-- The progress with further findings and failures. -/
def Progress.adding (progress : Progress) (findings : List Finding) (failures : List Failure) :
    Progress :=
  { progress with
    reporter := { progress.reporter with
      findings := progress.reporter.findings ++ findings
      failures := progress.reporter.failures ++ failures } }

theorem Progress.pushAll_eq_adding {progress : Progress} (quiet : progress.signal = .quiet)
    (findings : List Finding) : progress.pushAll findings = progress.adding findings [] := by
  rw [pushAll_of_quiet quiet, adding, List.append_nil]

/-- What a check adds to a pass and how it ends. The severities of the findings are left open. -/
structure Contribution where
  findings : List Finding
  failures : List Failure
  result : CheckResult

namespace Contribution

/-- The contribution is one of a rule. -/
structure Own (contribution : Contribution) (ruleId : String) : Prop where
  findings : ∀ finding ∈ contribution.findings, finding.ruleId = ruleId
  failures : ∀ failure ∈ contribution.failures, failure.ruleId = ruleId

/-- The findings with a severity. -/
def findingsAt (contribution : Contribution) (severity : Severity) : List Finding :=
  contribution.findings.map (·.withSeverity severity)

theorem Own.of_mem_findingsAt {contribution : Contribution} {ruleId : String}
    (own : contribution.Own ruleId) {severity : Severity} :
    ∀ finding ∈ contribution.findingsAt severity, finding.ruleId = ruleId := by
  intro finding member
  obtain ⟨draft, listed, rfl⟩ := List.mem_map.mp member
  exact own.findings draft listed

/-- What a check that makes the contribution gives, when the findings have a severity. -/
def made (contribution : Contribution) (severity : Severity) (progress : Progress) :
    CheckResult × Progress :=
  (contribution.result,
    progress.adding (contribution.findingsAt severity) contribution.failures)

/-- Reporters stay alike when a contribution is made to both passes. -/
theorem alike_made {hidden : Option String} {first second : Progress}
    (alike : first.reporter.Alike hidden second.reporter) (contribution : Contribution)
    (severity severityToo : Severity) :
    (contribution.made severity first).2.reporter.Alike hidden
      (contribution.made severityToo second).2.reporter where
  findings := by
    have erased (severity : Severity) :
        ((contribution.findingsAt severity).filter (some ·.ruleId ≠ hidden)).map
            (·.withSeverity .info) =
          (contribution.findings.filter (some ·.ruleId ≠ hidden)).map (·.withSeverity .info) := by
      rw [findingsAt, List.filter_map, List.map_map]
      rfl
    simp only [made, Progress.adding, List.filter_append, List.map_append, alike.findings,
      erased]
  failures := by
    simp only [made, Progress.adding, List.filter_append, alike.failures]

/-- A contribution and a further one. -/
def append (contribution further : Contribution) : Contribution :=
  ⟨contribution.findings ++ further.findings, contribution.failures ++ further.failures,
    further.result⟩

theorem made_append (contribution further : Contribution) (severity : Severity)
    (progress : Progress) : (contribution.append further).made severity progress =
      further.made severity (contribution.made severity progress).2 := by
  simp only [made, append, findingsAt, Progress.adding, List.map_append, List.append_assoc]

theorem Own.append {ruleId : String} {contribution further : Contribution}
    (own : contribution.Own ruleId) (ownToo : further.Own ruleId) :
    (contribution.append further).Own ruleId where
  findings := fun finding member =>
    (List.mem_append.mp member).elim (own.findings finding) (ownToo.findings finding)
  failures := fun failure member =>
    (List.mem_append.mp member).elim (own.failures failure) (ownToo.failures failure)

end Contribution

end TreeLint
