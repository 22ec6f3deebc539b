import Mathlib.Data.List.Sort
import TreeLint.Analysis.Engine

/-!
# The order in which findings are listed

Listing findings in order neither adds nor loses one, puts them in the order of their offsets and
then of the ids of their rules, and leaves those that agree in both as they came
(`TreeLint.Finding.sorted_lists`).
-/

namespace TreeLint.Finding

/-- Putting a finding at its place adds just that finding. -/
theorem place_perm (finding : Finding) (findings : List Finding) :
    (finding.place findings).Perm (finding :: findings) := by
  induction findings with
  | nil => exact .refl _
  | cons head tail ih =>
      unfold place
      split
      · exact .refl _
      · exact (ih.cons head).trans (.swap _ _ _)

/-- A sorted list holds the findings it was made from. -/
theorem sorted_perm (findings : List Finding) : (sorted findings).Perm findings := by
  induction findings with
  | nil => exact .refl _
  | cons finding findings ih => exact (place_perm finding _).trans (ih.cons finding)

theorem length_sorted (findings : List Finding) : (sorted findings).length = findings.length :=
  (sorted_perm findings).length_eq

/-! ### Stability -/

/-- Whether a finding is at an offset and of a rule. -/
def isAt (offset : Nat) (ruleId : String) (finding : Finding) : Bool :=
  finding.location.offset = offset && finding.ruleId = ruleId

/-- A list holds findings in the order of their offsets, those at one offset in the order of the
ids of their rules, and those that agree in both in the order in which they came. -/
structure Lists (findings listed : List Finding) : Prop where
  perm : listed.Perm findings
  ordered : listed.Pairwise fun first second =>
    first.location.offset < second.location.offset ∨
      first.location.offset = second.location.offset ∧ first.ruleId ≤ second.ruleId
  stable : ∀ offset ruleId,
    listed.filter (isAt offset ruleId) = findings.filter (isAt offset ruleId)

theorem precedes_iff (first second : Finding) : first.precedes second = true ↔
    first.location.offset < second.location.offset ∨
      first.location.offset = second.location.offset ∧ first.ruleId ≤ second.ruleId := by
  simp only [precedes, Bool.or_eq_true, Bool.and_eq_true, decide_eq_true_eq]

theorem precedes_trans {first second third : Finding} (former : first.precedes second = true)
    (latter : second.precedes third = true) : first.precedes third = true := by
  rw [precedes_iff] at former latter ⊢
  rcases former with before | ⟨same, ids⟩
  · left
    rcases latter with later | ⟨same, -⟩ <;> omega
  · rcases latter with later | ⟨equal, later⟩
    · left
      omega
    · exact .inr ⟨same.trans equal, String.le_trans ids later⟩

/-- Of two findings one may stand before the other. -/
theorem precedes_of_not_precedes {first second : Finding} (not : first.precedes second ≠ true) :
    second.precedes first = true := by
  rw [ne_eq, precedes_iff, not_or, not_and] at not
  rw [precedes_iff]
  obtain ⟨notBefore, ids⟩ := not
  by_cases same : second.location.offset = first.location.offset
  · refine .inr ⟨same, ?_⟩
    exact (String.le_total first.ruleId second.ruleId).resolve_left (ids same.symm)
  · left
    omega

/-- A finding is put before those that it may stand before. -/
theorem pairwise_place (finding : Finding) {findings : List Finding}
    (ordered : findings.Pairwise fun first second => first.precedes second = true) :
    (finding.place findings).Pairwise fun first second => first.precedes second = true := by
  induction findings with
  | nil => exact List.pairwise_singleton _ _
  | cons head tail ih =>
      obtain ⟨below, rest⟩ := List.pairwise_cons.mp ordered
      unfold place
      split
      · next before =>
          refine List.pairwise_cons.mpr ⟨fun other member => ?_, ordered⟩
          rcases List.mem_cons.mp member with rfl | member
          · exact before
          · exact precedes_trans before (below other member)
      · next notBefore =>
          refine List.pairwise_cons.mpr ⟨fun other member => ?_, ih rest⟩
          rcases List.mem_cons.mp ((place_perm finding tail).mem_iff.mp member) with rfl | member
          · exact precedes_of_not_precedes notBefore
          · exact below other member

theorem pairwise_sorted (findings : List Finding) :
    (sorted findings).Pairwise fun first second => first.precedes second = true := by
  induction findings with
  | nil => exact .nil
  | cons finding findings ih => exact pairwise_place finding ih

/-- A finding is put before all findings that agree with it. -/
theorem filter_place (finding : Finding) (findings : List Finding) (offset : Nat)
    (ruleId : String) : (finding.place findings).filter (isAt offset ruleId) =
      (finding :: findings).filter (isAt offset ruleId) := by
  induction findings with
  | nil => rfl
  | cons head tail ih =>
      unfold place
      split
      · rfl
      · next notBefore =>
          rw [List.filter_cons, ih, List.filter_cons, List.filter_cons, List.filter_cons]
          -- The two are exchanged only if they do not agree.
          have apart : isAt offset ruleId head = true → isAt offset ruleId finding ≠ true := by
            intro here there
            simp only [isAt, Bool.and_eq_true, decide_eq_true_eq] at here there
            rw [precedes_iff] at notBefore
            refine notBefore (.inr ⟨there.1.trans here.1.symm, ?_⟩)
            simp only [there.2, here.2, String.le_refl]
          by_cases here : isAt offset ruleId head = true
          · simp only [here, apart here, ↓reduceIte, Bool.false_eq_true]
          · simp only [here, ↓reduceIte, Bool.false_eq_true]

/-- Findings are listed in a stable order. -/
theorem sorted_lists (findings : List Finding) : Lists findings (sorted findings) where
  perm := sorted_perm findings
  ordered := (pairwise_sorted findings).imp fun before => (precedes_iff _ _).mp before
  stable := by
    intro offset ruleId
    induction findings with
    | nil => rfl
    | cons finding findings ih =>
        change (finding.place (sorted findings)).filter _ = _
        rw [filter_place, List.filter_cons, List.filter_cons, ih]

/-! ### Lists in order -/

theorem isAt_self (finding : Finding) :
    isAt finding.location.offset finding.ruleId finding = true := by
  simp only [isAt, decide_true, Bool.and_self]

theorem isAt_of_precedes {first second : Finding} (before : first.precedes second = true)
    (behind : second.precedes first = true) :
    isAt first.location.offset first.ruleId second = true := by
  rw [precedes_iff] at before behind
  have offsets : second.location.offset = first.location.offset := by omega
  have ids : second.ruleId = first.ruleId := String.le_antisymm
    (behind.resolve_left (by omega)).2 (before.resolve_left (by omega)).2
  rw [isAt, offsets, ids]
  simp only [decide_true, Bool.and_self]

theorem mem_of_filter {first second : List Finding} {finding : Finding}
    (same : ∀ offset ruleId,
      first.filter (isAt offset ruleId) = second.filter (isAt offset ruleId))
    (member : finding ∈ first) : finding ∈ second := by
  have chosen := List.mem_filter.mpr ⟨member, finding.isAt_self⟩
  rw [same] at chosen
  exact (List.mem_filter.mp chosen).1

/-- Lists in order are the same if they hold the same findings of each rule at each offset, one
after the other. -/
theorem eq_of_pairwise {first second : List Finding}
    (ordered : first.Pairwise fun former latter => former.precedes latter = true)
    (orderedToo : second.Pairwise fun former latter => former.precedes latter = true)
    (same : ∀ offset ruleId,
      first.filter (isAt offset ruleId) = second.filter (isAt offset ruleId)) :
    first = second := by
  induction first generalizing second with
  | nil =>
      cases second with
      | nil => rfl
      | cons head tail =>
          exact absurd (mem_of_filter (fun offset id => (same offset id).symm) List.mem_cons_self)
            List.not_mem_nil
  | cons head tail ih =>
      cases second with
      | nil => exact absurd (mem_of_filter same List.mem_cons_self) List.not_mem_nil
      | cons other others =>
          obtain ⟨below, rest⟩ := List.pairwise_cons.mp ordered
          obtain ⟨belowToo, restToo⟩ := List.pairwise_cons.mp orderedToo
          have heads : head = other := by
            rcases List.mem_cons.mp (mem_of_filter same List.mem_cons_self) with equal | later
            · exact equal
            rcases List.mem_cons.mp (mem_of_filter (fun offset id => (same offset id).symm)
              List.mem_cons_self) with equal | laterToo
            · exact equal.symm
            -- Each of the two may stand before the other, so that they agree; and each of them is
            -- the first in its list of those that agree with them.
            have agrees := isAt_of_precedes (below other laterToo) (belowToo head later)
            have firsts := same head.location.offset head.ruleId
            rw [List.filter_cons_of_pos head.isAt_self, List.filter_cons_of_pos agrees] at firsts
            exact (List.cons.inj firsts).1
          rw [heads, ih rest restToo fun offset id => ?_]
          have whole := same offset id
          rw [heads, List.filter_cons, List.filter_cons] at whole
          split at whole
          · exact (List.cons.inj whole).2
          · exact whole

/-- How findings are listed depends on the order only of those that agree in offset and rule. -/
theorem sorted_eq_of_filters {first second : List Finding}
    (same : ∀ offset ruleId,
      first.filter (isAt offset ruleId) = second.filter (isAt offset ruleId)) :
    sorted first = sorted second := by
  refine eq_of_pairwise (pairwise_sorted first) (pairwise_sorted second) fun offset ruleId => ?_
  rw [(sorted_lists first).stable, (sorted_lists second).stable, same]

/-- Findings in order are listed as they are. -/
theorem sorted_eq_self {findings : List Finding}
    (ordered : findings.Pairwise fun former latter => former.precedes latter = true) :
    sorted findings = findings :=
  eq_of_pairwise (pairwise_sorted findings) ordered (sorted_lists findings).stable

/-! ### Findings left out or changed -/

theorem filter_isAt_filterMap {change : Finding → Option Finding}
    (keeps : ∀ finding changed, change finding = some changed →
      changed.location.offset = finding.location.offset ∧ changed.ruleId = finding.ruleId)
    (findings : List Finding) (offset : Nat) (ruleId : String) :
    (findings.filterMap change).filter (isAt offset ruleId) =
      (findings.filter (isAt offset ruleId)).filterMap change := by
  rw [List.filter_filterMap, List.filterMap_filter]
  refine congrArg (List.filterMap · findings) (funext fun finding => ?_)
  cases result : change finding with
  | none => rw [Option.filter_none, ite_self]
  | some changed =>
      obtain ⟨offsets, ids⟩ := keeps finding changed result
      rw [Option.filter_some, isAt, isAt, offsets, ids]

/-- To leave findings out, or to change them without a change of offset and rule, comes to the same
before and after they are put in order. -/
theorem sorted_filterMap {change : Finding → Option Finding}
    (keeps : ∀ finding changed, change finding = some changed →
      changed.location.offset = finding.location.offset ∧ changed.ruleId = finding.ruleId)
    (findings : List Finding) :
    sorted (findings.filterMap change) = (sorted findings).filterMap change := by
  refine eq_of_pairwise (pairwise_sorted _) ?_ fun offset ruleId => ?_
  · refine List.pairwise_filterMap.mpr ((pairwise_sorted findings).imp ?_)
    intro first second before changed here changedToo there
    rw [precedes_iff] at before ⊢
    rw [(keeps first changed here).1, (keeps first changed here).2,
      (keeps second changedToo there).1, (keeps second changedToo there).2]
    exact before
  · rw [(sorted_lists _).stable, filter_isAt_filterMap keeps, filter_isAt_filterMap keeps,
      (sorted_lists findings).stable]

theorem sorted_filter (keep : Finding → Bool) (findings : List Finding) :
    sorted (findings.filter keep) = (sorted findings).filter keep := by
  rw [← List.filterMap_eq_filter]
  refine sorted_filterMap (fun finding changed chosen => ?_) findings
  cases (Option.guard_eq_some_iff.mp chosen).1
  exact ⟨rfl, rfl⟩

theorem place_eq_orderedInsert (finding : Finding) (findings : List Finding) :
    finding.place findings =
      findings.orderedInsert (fun first second => first.precedes second = true) finding := by
  induction findings with
  | nil => rfl
  | cons head tail ih => rw [place, ih, List.orderedInsert_cons]

/-- Findings that are left out are missing in the list, and nothing else changes. -/
theorem sorted_sublist {first second : List Finding} (fewer : first.Sublist second) :
    (sorted first).Sublist (sorted second) := by
  have transitive : IsTrans Finding fun first second => first.precedes second = true :=
    ⟨fun _ _ _ => precedes_trans⟩
  induction fewer with
  | slnil => exact .refl _
  | @cons _ tail finding _ ih =>
      change (sorted _).Sublist (finding.place (sorted tail))
      rw [place_eq_orderedInsert]
      exact ih.trans (List.sublist_orderedInsert finding _)
  | @cons_cons start tail finding _ ih =>
      change (finding.place (sorted start)).Sublist (finding.place (sorted tail))
      rw [place_eq_orderedInsert, place_eq_orderedInsert]
      exact ih.orderedInsert_sublist finding (pairwise_sorted tail)

end TreeLint.Finding
