import TreeLint.Proofs.Pass.Contribution

/-!
# Passes that mirror each other

When a rule gets another severity, its findings have this severity, or they and its failures are
gone if the rule gets none; other rules keep theirs. Of two passes, the second mirrors the first if
it has what the first has after this change (`TreeLint.Progress.Mirrors`). It does so again when
another rule makes the same contribution to both, when the rule makes its contribution to both with
the severity of each, and when a rule without a severity makes it to the first pass alone.
-/

namespace TreeLint

/-! ### Findings and failures of a rule -/

section Overriding

variable {α : Type} (owner : α → String) (give : α → Severity → α) (ruleId : String)

/-- What becomes of something that a rule has reported when a rule gets a severity, or none. -/
def overriding (severity : Option Severity) (item : α) : Option α :=
  if owner item = ruleId then severity.map (give item) else some item

theorem filterMap_overriding_none (items : List α) :
    items.filterMap (overriding owner give ruleId none) = items.filter (owner · ≠ ruleId) := by
  rw [← List.filterMap_eq_filter]
  refine congrArg (List.filterMap · items) (funext fun item => ?_)
  by_cases own : owner item = ruleId
  · simp only [overriding, own, ↓reduceIte, Option.map_none, Option.guard, ne_eq,
      not_true_eq_false, decide_false, Bool.false_eq_true]
  · simp only [overriding, own, ↓reduceIte, Option.guard, ne_eq, not_false_eq_true, decide_true]

theorem filterMap_overriding_some (severity : Severity) (items : List α) :
    items.filterMap (overriding owner give ruleId (some severity)) =
      items.map fun item => if owner item = ruleId then give item severity else item := by
  rw [← List.filterMap_eq_map]
  refine congrArg (List.filterMap · items) (funext fun item => ?_)
  unfold overriding
  split <;> simp only [*, Option.map_some, Function.comp_apply, ↓reduceIte]

variable {owner give ruleId} {items : List α}

theorem filterMap_overriding_of_other {id : String} (own : ∀ item ∈ items, owner item = id)
    (other : id ≠ ruleId) (severity : Option Severity) :
    items.filterMap (overriding owner give ruleId severity) = items := by
  have others (item : α) (member : item ∈ items) : owner item ≠ ruleId := by
    rw [own item member]
    exact other
  cases severity with
  | none =>
      rw [filterMap_overriding_none]
      exact List.filter_eq_self.mpr fun item member => decide_eq_true (others item member)
  | some severity =>
      rw [filterMap_overriding_some]
      exact (List.map_congr_left fun item member => if_neg (others item member)).trans
        (List.map_id items)

theorem filterMap_overriding_of_own (own : ∀ item ∈ items, owner item = ruleId)
    (severity : Option Severity) : items.filterMap (overriding owner give ruleId severity) =
      severity.elim [] fun severity => items.map (give · severity) := by
  cases severity with
  | none =>
      rw [filterMap_overriding_none]
      refine List.filter_eq_nil_iff.mpr fun item member => ?_
      rw [own item member]
      simp only [ne_eq, not_true_eq_false, decide_false, Bool.false_eq_true, not_false_eq_true]
  | some severity =>
      rw [filterMap_overriding_some]
      exact List.map_congr_left fun item member => if_pos (own item member)

end Overriding

/-- What becomes of a finding when a rule gets a severity, or none. -/
def Finding.overridden : (ruleId : String) → Option Severity → Finding → Option Finding :=
  overriding Finding.ruleId Finding.withSeverity

/-- What becomes of a failure when a rule gets a severity, or none. -/
def Failure.overridden : (ruleId : String) → Option Severity → Failure → Option Failure :=
  overriding Failure.ruleId fun failure _ => failure

theorem Failure.filterMap_overridden_some (ruleId : String) (severity : Severity)
    (failures : List Failure) :
    failures.filterMap (overridden ruleId (some severity)) = failures := by
  rw [overridden, filterMap_overriding_some]
  simp only [ite_self, List.map_id']

/-- The rule that other checkers must not see, which is the rule itself if it gets no severity. -/
def hiddenRule (ruleId : String) : Option Severity → Option String
  | none => some ruleId
  | some _ => none

/-! ### Passes that mirror each other -/

namespace Progress

/-- A pass, and the same pass where a rule has another severity. -/
structure Mirrors (ruleId : String) (severity : Option Severity) (progress changed : Progress) :
    Prop where
  quiet : progress.signal = .quiet
  quietToo : changed.signal = .quiet
  findings : changed.reporter.findings =
    progress.reporter.findings.filterMap (Finding.overridden ruleId severity)
  failures : changed.reporter.failures =
    progress.reporter.failures.filterMap (Failure.overridden ruleId severity)

namespace Mirrors

theorem start (ruleId : String) (severity : Option Severity) :
    Mirrors ruleId severity (.start .quiet true) (.start .quiet true) where
  quiet := rfl
  quietToo := rfl
  findings := rfl
  failures := rfl

variable {ruleId : String} {severity : Option Severity} {progress changed : Progress}
  (mirrors : Mirrors ruleId severity progress changed)

include mirrors

/-- A pass and its mirror are alike for all that must not see the rule. -/
theorem alike : progress.reporter.Alike (hiddenRule ruleId severity) changed.reporter := by
  refine ⟨?_, ?_⟩
  · rw [mirrors.findings, Finding.overridden]
    cases severity with
    | none =>
        rw [filterMap_overriding_none, List.filter_filter]
        simp only [hiddenRule, ne_eq, Option.some.injEq, decide_not, Bool.and_self]
    | some told =>
        rw [filterMap_overriding_some, hiddenRule, Reporter.Alike.filter_none Finding.ruleId,
          Reporter.Alike.filter_none Finding.ruleId, List.map_map]
        refine List.map_congr_left fun found _ => ?_
        rw [Function.comp_apply]
        split <;> rfl
  · rw [mirrors.failures]
    cases severity with
    | none =>
        rw [Failure.overridden, filterMap_overriding_none, List.filter_filter]
        simp only [hiddenRule, ne_eq, Option.some.injEq, decide_not, Bool.and_self]
    | some told => rw [Failure.filterMap_overridden_some]

variable {contribution : Contribution}

/-- Contributions of other rules are made to both passes. -/
theorem made_other {id : String} (own : contribution.Own id) (other : id ≠ ruleId)
    (told : Severity) : Mirrors ruleId severity (contribution.made told progress).2
      (contribution.made told changed).2 where
  quiet := mirrors.quiet
  quietToo := mirrors.quietToo
  findings := by
    change changed.reporter.findings ++ _ = (progress.reporter.findings ++ _).filterMap _
    rw [List.filterMap_append, mirrors.findings, Finding.overridden,
      filterMap_overriding_of_other own.of_mem_findingsAt other]
  failures := by
    change changed.reporter.failures ++ _ = (progress.reporter.failures ++ _).filterMap _
    rw [List.filterMap_append, mirrors.failures, Failure.overridden,
      filterMap_overriding_of_other own.failures other]

end Mirrors

variable {ruleId : String} {progress changed : Progress} {contribution : Contribution}

theorem filterMap_findingsAt_of_own (own : contribution.Own ruleId) (severity : Option Severity)
    (told : Severity) :
    (contribution.findingsAt told).filterMap (Finding.overridden ruleId severity) =
      severity.elim [] contribution.findingsAt := by
  rw [Finding.overridden, filterMap_overriding_of_own own.of_mem_findingsAt]
  cases severity with
  | none => rfl
  | some given =>
      change ((contribution.findings.map (·.withSeverity told)).map (·.withSeverity given)) = _
      rw [List.map_map]
      rfl

/-- Contributions of the rule are made to both passes, in each with its severity. -/
theorem Mirrors.made_own {given : Severity}
    (mirrors : Mirrors ruleId (some given) progress changed) (own : contribution.Own ruleId)
    (told : Severity) : Mirrors ruleId (some given) (contribution.made told progress).2
      (contribution.made given changed).2 where
  quiet := mirrors.quiet
  quietToo := mirrors.quietToo
  findings := by
    change changed.reporter.findings ++ _ = (progress.reporter.findings ++ _).filterMap _
    rw [List.filterMap_append, mirrors.findings, filterMap_findingsAt_of_own own]
    rfl
  failures := by
    change changed.reporter.failures ++ _ = (progress.reporter.failures ++ _).filterMap _
    rw [List.filterMap_append, mirrors.failures]
    exact congrArg _ (Failure.filterMap_overridden_some ruleId given _).symm

/-- Contributions of a rule without a severity are made to one pass alone. -/
theorem Mirrors.made_hidden (mirrors : Mirrors ruleId none progress changed)
    (own : contribution.Own ruleId) (told : Severity) :
    Mirrors ruleId none (contribution.made told progress).2 changed where
  quiet := mirrors.quiet
  quietToo := mirrors.quietToo
  findings := by
    change _ = (progress.reporter.findings ++ _).filterMap _
    rw [List.filterMap_append, mirrors.findings, filterMap_findingsAt_of_own own]
    exact (List.append_nil _).symm
  failures := by
    change _ = (progress.reporter.failures ++ _).filterMap _
    rw [List.filterMap_append, mirrors.failures, Failure.overridden,
      filterMap_overriding_of_own own.failures]
    exact (List.append_nil _).symm

end Progress

end TreeLint
