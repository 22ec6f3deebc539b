import Mathlib.Logic.Function.Basic
import TreeLint.Proofs.Pass.Progress

/-!
# Reporters that are shared

A reporter may be in the hands of several producers while the host raises the signal. Every
operation is one step, and a run takes the steps of all actors in some order, those of one actor in
its own order (`TreeLint.Interleaves`). Whatever the order, a tied reporter ends up with what was
submitted before the signal was first raised, and one that is not tied with everything; failures are
always kept, and whoever looks at the reporter in between is shown a first part of what it ends up
with (`TreeLint.ReporterStep.keeps_submitted`).
-/

namespace TreeLint

variable {ι : Type} [DecidableEq ι]

/-! ### Interleavings -/

section Interleaving

variable {α : Type}

/-- What the actors have to do, taken item after item from any actor that is not done yet. -/
inductive Interleaves : (ι → List α) → List (ι × α) → Prop
  | done {programs : ι → List α} (finished : ∀ actor, programs actor = []) :
      Interleaves programs []
  | step {programs : ι → List α} {actor : ι} {item : α} {rest : List α} {trace : List (ι × α)}
      (next : programs actor = item :: rest)
      (later : Interleaves (Function.update programs actor rest) trace) :
      Interleaves programs ((actor, item) :: trace)

/-- The part of one actor in what several actors have done. -/
def ofActor (actor : ι) (trace : List (ι × α)) : List α :=
  (trace.filter (·.1 = actor)).map (·.2)

@[simp] theorem ofActor_cons_self (actor : ι) (item : α) (trace : List (ι × α)) :
    ofActor actor ((actor, item) :: trace) = item :: ofActor actor trace := by
  simp [ofActor]

theorem ofActor_cons_of_ne {actor other : ι} (different : other ≠ actor) (item : α)
    (trace : List (ι × α)) : ofActor actor ((other, item) :: trace) = ofActor actor trace := by
  simp [ofActor, different]

/-- Every actor does in an interleaving what it has to do, in its own order. -/
theorem Interleaves.ofActor_eq {programs : ι → List α} {trace : List (ι × α)}
    (interleaves : Interleaves programs trace) (actor : ι) :
    ofActor actor trace = programs actor := by
  induction interleaves with
  | done finished => exact (finished actor).symm
  | @step programs other item rest trace next later ih =>
      by_cases same : other = actor
      · subst same
        rw [ofActor_cons_self, ih, Function.update_self, next]
      · rw [ofActor_cons_of_ne same, ih, Function.update_of_ne (Ne.symm same)]

end Interleaving

/-- An item that may contribute something comes before what the others contribute. -/
theorem filterMap_cons_toList {α β : Type} (part : α → Option β) (item : α) (items : List α) :
    (item :: items).filterMap part = (part item).toList ++ items.filterMap part := by
  cases given : part item <;> simp [given]

/-! ### Properties given at once -/

namespace Finding

theorem foldl_withProperty (finding : Finding) (entries : List (String × String)) :
    entries.foldl (fun finding entry => finding.withProperty entry.1 entry.2) finding =
      { finding with properties := finding.properties.insertAll entries } := by
  induction entries generalizing finding with
  | nil => rfl
  | cons entry entries ih => exact ih (finding.withProperty entry.1 entry.2)

/-- A finding of a rule has no properties of its own. -/
theorem withProperties_ofRule (descriptor : Descriptor) (severity : Severity)
    (location : Location) (args : List String) (properties : Dict String) :
    (ofRule descriptor severity location args).withProperties properties =
      { ofRule descriptor severity location args with properties } := by
  have given : Dict.empty.insertAll properties.entries = properties :=
    Dict.ofList_entries properties
  simp [withProperties, ofRule, given]

end Finding

/-! ### Steps -/

/-- An operation on a shared reporter, or on the signal of the pass. -/
inductive ReporterStep where
  | push (finding : Finding)
  | report (descriptor : Descriptor) (severity : Severity) (location : Location)
      (args : List String) (properties : Dict String)
  | recordFailure (failure : Failure)
  | raise
  | list
  | count

/-- What a look at a reporter shows: its findings, or how many there are. -/
inductive Snapshot where
  | findings (shown : List Finding)
  | count (shown : Nat)

/-- The snapshot shows a first part of a list of findings. -/
def Snapshot.ShowsPrefix (findings : List Finding) : Snapshot → Prop
  | .findings shown => shown <+: findings
  | .count shown => ∃ part, part <+: findings ∧ part.length = shown

namespace ReporterStep

/-- Carries out a step. -/
def run (progress : Progress) : ReporterStep → Progress
  | .push finding => progress.push finding
  | .report descriptor severity location args properties =>
      progress.report descriptor severity location args properties
  | .recordFailure failure => progress.recordFailure failure
  | .raise => progress.raise
  | .list | .count => progress

/-- The finding that a step submits. -/
def submitted? : ReporterStep → Option Finding
  | .push finding => some finding
  | .report descriptor severity location args properties =>
      some { Finding.ofRule descriptor severity location args with properties }
  | .recordFailure _ | .raise | .list | .count => none

def failure? : ReporterStep → Option Failure
  | .recordFailure failure => some failure
  | .push _ | .report .. | .raise | .list | .count => none

def isRaise : ReporterStep → Bool
  | .raise => true
  | .push _ | .report .. | .recordFailure _ | .list | .count => false

/-- What a step shows of a reporter. -/
def snapshot? (progress : Progress) : ReporterStep → Option Snapshot
  | .list => some (.findings progress.reporter.findings)
  | .count => some (.count progress.findingCount)
  | .push _ | .report .. | .recordFailure _ | .raise => none

/-- To report with properties is to submit the finding that has them. -/
theorem run_report (progress : Progress) (descriptor : Descriptor) (severity : Severity)
    (location : Location) (args : List String) (properties : Dict String) :
    (report descriptor severity location args properties).run progress =
      progress.push { Finding.ofRule descriptor severity location args with properties } := by
  rw [← Finding.withProperties_ofRule]
  rfl

theorem run_movesTo (step : ReporterStep) (progress : Progress) :
    progress.MovesTo (step.run progress) := by
  cases step with
  | push finding => exact progress.movesTo_push finding
  | report => exact progress.movesTo_push _
  | recordFailure failure => exact progress.movesTo_recordFailure failure
  | raise => exact progress.movesTo_raise
  | list => exact .refl progress
  | count => exact .refl progress

theorem failures_run (step : ReporterStep) (progress : Progress) :
    (step.run progress).reporter.failures =
      progress.reporter.failures ++ step.failure?.toList := by
  have pushed (finding : Finding) :
      (progress.push finding).reporter.failures = progress.reporter.failures := by
    rw [Progress.push]
    split <;> rfl
  cases step with
  | push finding => simpa [run, failure?] using pushed finding
  | report => simpa [run_report, failure?] using pushed _
  | recordFailure failure => rfl
  | raise => simp [run, failure?, Progress.raise]
  | list => simp [run, failure?]
  | count => simp [run, failure?]

/-! While the host raises the signal in steps of its own only, a reporter is closed exactly if it is
tied and one of these steps has been taken. -/

section Unplanned

variable {progress : Progress}

theorem look_of_unplanned (unplanned : progress.signal.looksLeft = none) :
    progress.look = progress := by
  obtain ⟨⟨raised, looksLeft⟩, reporter⟩ := progress
  cases unplanned
  cases raised <;> rfl

theorem push_eq (unplanned : progress.signal.looksLeft = none) (finding : Finding) :
    progress.push finding =
      if progress.reporter.tied && progress.signal.raised then progress
      else progress.accept finding := by
  simp only [Progress.push, look_of_unplanned unplanned]

/-- Only a step that raises the signal changes it. -/
theorem signal_run (step : ReporterStep) (unplanned : progress.signal.looksLeft = none) :
    (step.run progress).signal = ⟨progress.signal.raised || step.isRaise, none⟩ := by
  have same : progress.signal = ⟨progress.signal.raised, none⟩ := by rw [← unplanned]
  have pushed (finding : Finding) : (progress.push finding).signal = progress.signal := by
    rw [push_eq unplanned]
    split <;> rfl
  cases step with
  | push finding => simpa [run, isRaise, pushed] using same
  | report => simpa [run_report, isRaise, pushed] using same
  | recordFailure failure => simpa [run, isRaise, Progress.recordFailure] using same
  | raise => simp [run, isRaise, Progress.raise, Signal.raise, unplanned]
  | list => simpa [run, isRaise] using same
  | count => simpa [run, isRaise] using same

/-- A step adds the finding that it submits, unless the reporter is closed. -/
theorem findings_run (step : ReporterStep) (unplanned : progress.signal.looksLeft = none) :
    (step.run progress).reporter.findings = progress.reporter.findings ++
      if progress.reporter.tied && progress.signal.raised then [] else step.submitted?.toList := by
  have pushed (finding : Finding) : (progress.push finding).reporter.findings =
      progress.reporter.findings ++
        if progress.reporter.tied && progress.signal.raised then [] else [finding] := by
    rw [push_eq unplanned]
    split
    · exact (List.append_nil _).symm
    · rfl
  cases step with
  | push finding => exact pushed finding
  | report =>
      rw [run_report]
      exact pushed _
  | recordFailure failure => simp [run, submitted?, Progress.recordFailure]
  | raise => simp [run, submitted?, Progress.raise]
  | list => simp [run, submitted?]
  | count => simp [run, submitted?]

end Unplanned

/-! ### Runs -/

/-- Carries out the steps of several actors one after the other. -/
def runAll (progress : Progress) (trace : List (ι × ReporterStep)) : Progress :=
  trace.foldl (fun progress event => event.2.run progress) progress

/-- The findings that are accepted in a run, each with the actor whose step has added it. -/
def accepted : Progress → List (ι × ReporterStep) → List (ι × Finding)
  | _, [] => []
  | progress, (actor, step) :: trace =>
      ((step.run progress).reporter.findings.drop progress.findingCount).map (actor, ·) ++
        accepted (step.run progress) trace

/-- The snapshots that are taken in a run, each with the actor that takes it. -/
def snapshots : Progress → List (ι × ReporterStep) → List (ι × Snapshot)
  | _, [] => []
  | progress, (actor, step) :: trace =>
      (step.snapshot? progress).toList.map (actor, ·) ++ snapshots (step.run progress) trace

/-- The steps during which a reporter is open: those before the signal is first raised if it is
tied, and else all. -/
def whileOpen (tied raised : Bool) (trace : List (ι × ReporterStep)) : List (ι × ReporterStep) :=
  if tied then if raised then [] else trace.takeWhile (!·.2.isRaise) else trace

omit [DecidableEq ι] in
theorem whileOpen_isInitial (tied raised : Bool) (trace : List (ι × ReporterStep)) :
    whileOpen tied raised trace <+: trace := by
  unfold whileOpen
  split
  · split
    · exact List.nil_prefix
    · exact List.takeWhile_prefix _
  · exact List.prefix_rfl

/-- What a step submits, with its actor. -/
def submission? (event : ι × ReporterStep) : Option (ι × Finding) :=
  event.2.submitted?.map (event.1, ·)

/-- What an actor submits is the submissions among its steps. -/
theorem ofActor_submissions (actor : ι) (trace : List (ι × ReporterStep)) :
    ofActor actor (trace.filterMap submission?) = (ofActor actor trace).filterMap submitted? := by
  induction trace with
  | nil => rfl
  | cons event trace ih =>
      obtain ⟨other, step⟩ := event
      cases given : step.submitted? with
      | none =>
          have nothing : submission? (other, step) = none := by simp [submission?, given]
          rw [List.filterMap_cons_none nothing, ih]
          by_cases same : other = actor
          · subst same
            rw [ofActor_cons_self, List.filterMap_cons_none given]
          · rw [ofActor_cons_of_ne same]
      | some finding =>
          have submits : submission? (other, step) = some (other, finding) := by
            simp [submission?, given]
          rw [List.filterMap_cons_some submits]
          by_cases same : other = actor
          · subst same
            rw [ofActor_cons_self, ofActor_cons_self, List.filterMap_cons_some given, ih]
          · rw [ofActor_cons_of_ne same, ofActor_cons_of_ne same, ih]

omit [DecidableEq ι] in
theorem submissions_whileOpen_cons (tied raised : Bool) (event : ι × ReporterStep)
    (trace : List (ι × ReporterStep)) :
    (whileOpen tied raised (event :: trace)).filterMap submission? =
      (if tied && raised then [] else (submission? event).toList) ++
        (whileOpen tied (raised || event.2.isRaise) trace).filterMap submission? := by
  cases tied with
  | false => exact filterMap_cons_toList submission? event trace
  | true =>
      cases raised with
      | true => rfl
      | false =>
          simp only [whileOpen, ↓reduceIte, Bool.false_eq_true, Bool.and_false, Bool.false_or,
            List.takeWhile_cons]
          cases raising : event.2.isRaise with
          | true =>
              -- A step that raises the signal submits nothing.
              obtain ⟨actor, step⟩ := event
              cases step <;> simp_all [isRaise, submission?, submitted?]
          | false =>
              simp only [Bool.not_false, ↓reduceIte, Bool.false_eq_true]
              exact filterMap_cons_toList submission? event _

omit [DecidableEq ι] in
theorem runAll_movesTo (trace : List (ι × ReporterStep)) (progress : Progress) :
    progress.MovesTo (runAll progress trace) := by
  induction trace generalizing progress with
  | nil => exact .refl progress
  | cons event trace ih => exact (event.2.run_movesTo progress).trans (ih _)

omit [DecidableEq ι] in
/-- A reporter ends up with what it held and what it has accepted. -/
theorem findings_runAll (trace : List (ι × ReporterStep)) (progress : Progress) :
    (runAll progress trace).reporter.findings =
      progress.reporter.findings ++ (accepted progress trace).map (·.2) := by
  induction trace generalizing progress with
  | nil => exact (List.append_nil _).symm
  | cons event trace ih =>
      obtain ⟨added, more⟩ := (event.2.run_movesTo progress).findings
      change (runAll (event.2.run progress) trace).reporter.findings = _
      rw [ih, ← more]
      simp [accepted, ← more, Progress.findingCount, Function.comp_def]

omit [DecidableEq ι] in
theorem failures_runAll (trace : List (ι × ReporterStep)) (progress : Progress) :
    (runAll progress trace).reporter.failures =
      progress.reporter.failures ++ trace.filterMap (·.2.failure?) := by
  induction trace generalizing progress with
  | nil => exact (List.append_nil _).symm
  | cons event trace ih =>
      change (runAll (event.2.run progress) trace).reporter.failures = _
      rw [ih, failures_run, List.append_assoc, filterMap_cons_toList]

omit [DecidableEq ι] in
/-- Exactly what is submitted while the reporter is open is accepted. -/
theorem accepted_eq (trace : List (ι × ReporterStep)) {progress : Progress}
    (unplanned : progress.signal.looksLeft = none) :
    accepted progress trace =
      (whileOpen progress.reporter.tied progress.signal.raised trace).filterMap submission? := by
  induction trace generalizing progress with
  | nil => simp [accepted, whileOpen]
  | cons event trace ih =>
      obtain ⟨actor, step⟩ := event
      have after := step.signal_run unplanned
      have unplannedToo : (step.run progress).signal.looksLeft = none := by rw [after]
      have rest := ih unplannedToo
      rw [accepted, rest, after, (step.run_movesTo progress).tied, submissions_whileOpen_cons,
        step.findings_run unplanned]
      congr 1
      simp only [Progress.findingCount, List.drop_left]
      split
      · rfl
      · cases submitted : step.submitted? <;> simp [submission?, submitted]

omit [DecidableEq ι] in
/-- What is shown in a run remains the beginning of what there is to show. -/
theorem snapshots_show (trace : List (ι × ReporterStep)) (progress : Progress) :
    ∀ shown ∈ snapshots progress trace,
      shown.2.ShowsPrefix (runAll progress trace).reporter.findings := by
  induction trace generalizing progress with
  | nil => exact fun shown member => absurd member List.not_mem_nil
  | cons event trace ih =>
      intro shown member
      have kept := (runAll_movesTo (event :: trace) progress).findings
      rcases List.mem_append.mp member with here | later
      · obtain ⟨snapshot, taken, rfl⟩ := List.mem_map.mp here
        obtain ⟨actor, step⟩ := event
        cases step with
        | list =>
            cases Option.mem_toList.mp taken
            exact kept
        | count =>
            cases Option.mem_toList.mp taken
            exact ⟨_, kept, rfl⟩
        | push | report | recordFailure | raise => exact nomatch Option.mem_toList.mp taken
      · exact ih (event.2.run progress) shown later

/-- **What a shared reporter keeps.** Let any number of producers, hosts and onlookers work on a
new reporter, in any interleaving of their steps. The findings are exactly those submitted before
the signal was first raised if the reporter is tied, and else all, in the order of the submissions
and each as often as it was submitted. They are the accepted ones, and of each producer a first part
of what it submits is accepted, in its order. All failures are kept in their order. Whoever looks at
the findings or their number in between is shown a first part of what the reporter ends up with. And
to report with properties is to submit the finding of the rule that has these properties, or that
has been given them one by one. -/
theorem keeps_submitted {programs : ι → List ReporterStep} {trace : List (ι × ReporterStep)}
    (interleaves : Interleaves programs trace) (tied raised : Bool) :
    let start := Progress.start (.ofRaised raised) tied
    (runAll start trace).reporter.findings =
        (whileOpen tied raised trace).filterMap (·.2.submitted?) ∧
      (runAll start trace).reporter.findings = (accepted start trace).map (·.2) ∧
      (∀ actor, ofActor actor (accepted start trace) <+:
        (programs actor).filterMap submitted?) ∧
      (runAll start trace).reporter.failures = trace.filterMap (·.2.failure?) ∧
      (∀ shown ∈ snapshots start trace,
        shown.2.ShowsPrefix (runAll start trace).reporter.findings) ∧
      ∀ (progress : Progress) (descriptor : Descriptor) (severity : Severity)
        (location : Location) (args : List String) (properties : Dict String),
        let finding := Finding.ofRule descriptor severity location args
        progress.report descriptor severity location args properties =
            progress.push { finding with properties } ∧
          progress.report descriptor severity location args properties =
            progress.push (properties.entries.foldl
              (fun finding entry => finding.withProperty entry.1 entry.2) finding) := by
  intro start
  have accepting : accepted start trace = (whileOpen tied raised trace).filterMap submission? :=
    accepted_eq trace rfl
  have kept : (runAll start trace).reporter.findings = (accepted start trace).map (·.2) :=
    findings_runAll trace start
  refine ⟨?_, kept, fun actor => ?_, failures_runAll trace start, snapshots_show trace start,
    fun progress descriptor severity location args properties => ⟨?_, ?_⟩⟩
  · rw [kept, accepting, List.map_filterMap]
    simp [submission?, Function.comp_def]
  · -- The actor's part of the open steps is a first part of its program.
    have opened := (((whileOpen_isInitial tied raised trace).filter (·.1 = actor)).map
      (·.2)).filterMap submitted?
    change _ <+: (ofActor actor trace).filterMap submitted? at opened
    rw [interleaves.ofActor_eq] at opened
    rw [accepting, ofActor_submissions]
    exact opened
  · exact run_report progress descriptor severity location args properties
  · rw [Finding.foldl_withProperty]
    rfl

/-- A rule that has something to say about a file. -/
def notice : Descriptor :=
  ⟨"style/notice", "CL9010", "Notice", .style, .hint, true, "see {0}"⟩

/-- A finding that is submitted more than once. -/
def repeated : Finding :=
  .ofRule notice .hint .unknown ["above"]

/-- A failure that is recorded late. -/
def belated : Failure :=
  ⟨"style/notice", "Block", ⟨0, 0⟩, "no luck"⟩

/-- Two producers, and a host that raises the signal. -/
def shifts : Fin 3 → List ReporterStep
  | 0 => [.push repeated, .push repeated, .recordFailure belated, .push repeated]
  | 1 => [.report notice .hint .unknown ["below"] (.ofList [("Name", "x")]), .count]
  | 2 => [.raise]

/-- The host comes between the submissions of the first producer. -/
def interrupted : List (Fin 3 × ReporterStep) := [
  (0, .push repeated),
  (1, .report notice .hint .unknown ["below"] (.ofList [("Name", "x")])),
  (0, .push repeated), (2, .raise), (0, .recordFailure belated), (1, .count), (0, .push repeated)]

theorem keeps_submitted_interrupted : Interleaves shifts interrupted ∧
    (runAll (.start .quiet true) interrupted).reporter.findings.map (·.message) =
      ["see above", "see below", "see above"] ∧
    (runAll (.start .quiet true) interrupted).reporter.failures = [belated] ∧
    (runAll (.start .quiet false) interrupted).reporter.findings.length = 4 := by
  have interleaves : Interleaves shifts interrupted := by
    repeat refine .step rfl ?_
    apply Interleaves.done
    intro actor
    match actor with
    | 0 | 1 | 2 => rfl
  obtain ⟨findings, -, -, failures, -⟩ := keeps_submitted interleaves true false
  obtain ⟨all, -⟩ := keeps_submitted interleaves false false
  refine ⟨interleaves, ?_, failures, ?_⟩
  · change (runAll (.start (.ofRaised false) true) interrupted).reporter.findings.map _ = _
    rw [findings]
    decide
  · change (runAll (.start (.ofRaised false) false) interrupted).reporter.findings.length = _
    rw [all]
    rfl

end ReporterStep

end TreeLint
