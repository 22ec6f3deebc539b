import TreeLint.Proofs.Pass.Traversal
import TreeLint.Rule.Script

/-!
# The checkers of the library are interactive

A checker that reports findings submits them one after the other, the check of anonymous methods
looks at the signal between two overloads and may raise it by asking for a type, and an action of
a script is one operation of the pass. So the built-in checkers and all scripted ones get hold of
a pass only through its operations (`TreeLint.Registry.builtin_interactive`,
`TreeLint.Script.checker_interactive`).
-/

namespace TreeLint

variable {α : Type}

/-- Submitting a list of findings is interactive. -/
theorem Interactive.pushAll (findings : List Finding) :
    Interactive fun progress => ((), progress.pushAll findings) := by
  induction findings with
  | nil => exact .finish ()
  | cons finding findings ih => exact (Interactive.push finding).bind _ fun _ => ih

theorem Checker.ofFindings_interactive (descriptor : Descriptor) (kinds : List Kind)
    (findings : Context → Node → List Finding) :
    (Checker.ofFindings descriptor kinds findings).IsInteractive := fun context node =>
  (Interactive.pushAll (findings context node)).bind _ fun _ => .finish CheckResult.done

/-- A function of the signal as one of the progress. -/
def Progress.onSignal (step : Signal → α × Signal) (progress : Progress) : α × Progress :=
  ((step progress.signal).1, { progress with signal := (step progress.signal).2 })

namespace SemanticModel

variable (model : SemanticModel)

/-- A query can only raise the signal. -/
theorem afterQuery_interactive (id : TypeId) :
    Interactive (Progress.onSignal fun signal => ((), model.afterQuery id signal)) := by
  unfold afterQuery
  cases model.raises id with
  | false => exact .finish ()
  | true => exact .raise

theorem fits_interactive (position : Nat) (parameters : List (ParameterSymbol × ParameterSymbol)) :
    Interactive (Progress.onSignal (model.fits position · parameters)) := by
  induction parameters with
  | nil => exact .finish true
  | cons pair parameters ih =>
      obtain ⟨theirs, ours⟩ := pair
      unfold fits
      by_cases here : theirs.ordinal = position
      · simp only [here, ↓reduceIte]
        refine (model.afterQuery_interactive theirs.type).bind
          (fun _ => Progress.onSignal fun signal =>
            if (model.type? theirs.type).any (·.isDelegate) then
              model.fits position signal parameters
            else (false, signal)) fun _ => ?_
        cases (model.type? theirs.type).any (·.isDelegate) with
        | true => exact ih
        | false => exact .finish false
      · simp only [here, ↓reduceIte]
        by_cases same : theirs.type = ours.type
        · simp only [same, ↓reduceIte]
          exact ih
        · simp only [same, ↓reduceIte]
          exact .finish false

/-- The signal is looked at before each candidate. -/
theorem tryCandidates_interactive (method : MethodSymbol) (position : Nat)
    (candidates : List MethodSymbol) :
    Interactive (Progress.onSignal (model.tryCandidates method position · candidates)) := by
  induction candidates with
  | nil => exact .finish (some Verdict.unambiguous)
  | cons candidate candidates ih =>
      have settled (accepted : Bool) : Interactive (Progress.onSignal fun signal =>
          if accepted then (some .ambiguous, signal)
          else model.tryCandidates method position signal candidates) := by
        cases accepted with
        | true => exact .finish (some Verdict.ambiguous)
        | false => exact ih
      have tried :=
        (model.fits_interactive position
          (candidate.parameters.zip method.parameters)).bind _ settled
      refine (tried.unlessRaised none).of_eq fun progress => ?_
      simp only [Progress.onSignal, tryCandidates]
      change _ = if progress.signal.look.raised = true then (none, progress.look) else _
      cases progress.signal.look.raised <;> rfl

/-- So is the signal when a call is resolved. -/
theorem resolve_interactive (bound : MethodId) (position : Nat) :
    Interactive (Progress.onSignal (model.resolve bound position)) := by
  unfold resolve
  cases model.method? bound with
  | none => exact .finish (some Verdict.unresolved)
  | some method =>
      dsimp only
      cases model.type? method.containingType with
      | none =>
          exact (model.afterQuery_interactive method.containingType).bind _ fun _ =>
            .finish (some Verdict.unresolved)
      | some type =>
          refine (model.afterQuery_interactive method.containingType).bind
            (fun _ => Progress.onSignal fun signal =>
              model.tryCandidates method position
                (model.afterQuery method.containingType signal)
                (model.candidates bound method)) fun _ => ?_
          exact (model.afterQuery_interactive method.containingType).bind _ fun _ =>
            model.tryCandidates_interactive method position (model.candidates bound method)

end SemanticModel

namespace AnonymousMethodList

theorem isRemovable_interactive (context : Context) (node : Node) :
    Interactive (Progress.onSignal (isRemovable context node)) := by
  unfold isRemovable
  cases callArgument? node with
  | none => exact .finish (some true)
  | some argument =>
      dsimp only
      cases context.unit.model.boundMethod? argument.call with
      | none => exact .finish (some false)
      | some method =>
          exact (context.unit.model.resolve_interactive method argument.position).bind _
            fun verdict => .finish (verdict.map (·.isSafe))

/-- How a check ends with an answer. -/
def settle (context : Context) (list : ParameterList) :
    Option Bool → Progress → CheckResult × Progress
  | none, progress => (.failed .cancelled, progress)
  | some true, progress => (.done, progress.push (finding context list))
  | some false, progress => (.done, progress)

theorem settle_interactive (context : Context) (list : ParameterList) (answer : Option Bool) :
    Interactive (settle context list answer) := by
  cases answer with
  | none => exact .finish (CheckResult.failed .cancelled)
  | some removable =>
      cases removable with
      | true =>
          exact (Interactive.push (finding context list)).bind _ fun _ => .finish CheckResult.done
      | false => exact .finish CheckResult.done

theorem checker_interactive : checker.IsInteractive := by
  intro context node
  change Interactive (check context node)
  unfold check
  cases emptyList? node with
  | none => exact .finish CheckResult.done
  | some list =>
      have settled :=
        (isRemovable_interactive context node).bind _ (settle_interactive context list)
      refine settled.of_eq fun progress => ?_
      unfold Progress.onSignal
      rcases isRemovable context node progress.signal with ⟨answer, signal⟩
      cases answer with
      | none => rfl
      | some removable => cases removable <;> rfl

end AnonymousMethodList

theorem Registry.builtin_interactive : Registry.builtin.IsInteractive := by
  intro registration member
  have listed := checker_of_mem_registerAll member
  simp only [Builtin.checkers, List.mem_cons, List.not_mem_nil, or_false] at listed
  rcases listed with casing | anonymous | attributes
  · rw [casing]
    exact Checker.ofFindings_interactive _ _ _
  · rw [anonymous]
    exact AnonymousMethodList.checker_interactive
  · rw [attributes]
    exact Checker.ofFindings_interactive _ _ _

/-- Goes on with the next part of a check, unless the check has ended. -/
def CheckResult.andThen (next : Progress → CheckResult × Progress) :
    CheckResult → Progress → CheckResult × Progress
  | .done, progress => next progress
  | .failed error, progress => (.failed error, progress)
  | .crashed message, progress => (.crashed message, progress)

theorem Interactive.andThenCheck {next : Progress → CheckResult × Progress}
    (interactive : Interactive next) (result : CheckResult) :
    Interactive (result.andThen next) := by
  cases result with
  | done => exact interactive
  | failed error => exact .finish (CheckResult.failed error)
  | crashed message => exact .finish (CheckResult.crashed message)

namespace Script

variable (descriptor : Descriptor) (context : Context) (node : Node)

/-- What the arguments of a finding can see of a pass: what has been reported. -/
def seen (findings : List Finding) (failures : List Failure) : Progress :=
  ⟨.quiet, findings, failures, true⟩

theorem finding_seen (progress : Progress) (args : List Term) :
    finding descriptor context node progress args =
      finding descriptor context node
        (seen progress.reporter.findings progress.reporter.failures) args := by
  have value : Term.value descriptor context node progress =
      Term.value descriptor context node
        (seen progress.reporter.findings progress.reporter.failures) := by
    funext term
    cases term <;> rfl
  unfold finding
  rw [value]

/-- Submitting a finding that is made from what has been reported is interactive. -/
theorem pushSeen_interactive (args : List Term) (complete : Finding → Finding) :
    Interactive fun progress => (CheckResult.done,
      progress.push (complete (finding descriptor context node progress args))) := by
  have pushed : Interactive _ := Interactive.read fun findings failures =>
    (Interactive.push (complete (finding descriptor context node (seen findings failures)
      args))).bind _ fun _ => .finish CheckResult.done
  refine pushed.of_eq fun progress => ?_
  rw [finding_seen]

mutual

/-- Each action is one operation of the pass, except for those that carry out further actions. -/
theorem Action.run_interactive : (action : Action) →
    Interactive (Action.run descriptor context node · action)
  | .report args properties =>
      pushSeen_interactive descriptor context node args (·.withProperties properties)
  | .emit args suggestions =>
      pushSeen_interactive descriptor context node args fun finding =>
        (relocated context node suggestions).foldl .withSuggestion finding
  | .when text actions => by
      unfold Action.run
      by_cases matching : node.text = text
      · simp only [matching, ↓reduceIte]
        exact Action.runAll_interactive actions
      · simp only [matching, ↓reduceIte]
        exact .finish CheckResult.done
  | .raise => Interactive.raise.bind _ fun _ => .finish CheckResult.done
  | .look => Interactive.look.bind _ fun raised =>
      .finish (if raised then CheckResult.failed .cancelled else .done)
  | .fail error => .finish (CheckResult.failed error)
  | .crash message => .finish (CheckResult.crashed message)

theorem Action.runAll_interactive : (actions : List Action) →
    Interactive (Action.runAll descriptor context node · actions)
  | [] => .finish CheckResult.done
  | action :: actions => by
      have carried := (Action.run_interactive action).bind _
        (Action.runAll_interactive actions).andThenCheck
      refine carried.of_eq fun progress => ?_
      rw [Action.runAll]
      rcases Action.run descriptor context node progress action with ⟨result, progress⟩
      cases result <;> rfl

end

theorem checker_interactive (kinds : List Kind) (actions : List Action) :
    (checker descriptor kinds actions).IsInteractive := fun context node =>
  Action.runAll_interactive descriptor context node actions

end Script

end TreeLint
