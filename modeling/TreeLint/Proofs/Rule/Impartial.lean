import TreeLint.Proofs.Analysis.Interruption
import TreeLint.Proofs.Pass.Contribution
import TreeLint.Rule.Script

/-!
# Checkers that pay no attention to severities

What a checker reports may depend on everything that it can read but the severities: it reports the
same under all severities, each finding with the severity of its rule. It may read what has been
reported before it, or all of this apart from what one rule has reported (`TreeLint.Impartial`). The
built-in checkers are like this for every host that leaves the signal alone
(`TreeLint.Builtin.isImpartial`), and so are scripts that neither show the severity nor raise the
signal (`TreeLint.Script.isImpartial`).
-/

namespace TreeLint

/-- The context with other severities. -/
def Context.withSeverities (context : Context) (severities : Dict RuleSeverity) : Context :=
  { context with settings := { context.settings with severities } }

/-- Under any severities, and after anything that differs only in severities and in what a hidden
rule has reported, a check makes the same contribution to a pass whose signal is quiet. The findings
have the severity of the rule. -/
def Impartial (descriptor : Descriptor) (context : Context) (hidden : Option String)
    (check : Context → Progress → CheckResult × Progress) : Prop :=
  ∀ severities severitiesToo (first second : Progress),
    first.signal = .quiet → second.signal = .quiet → first.reporter.Alike hidden second.reporter →
    ∃ contribution : Contribution, contribution.Own descriptor.id ∧
      check (context.withSeverities severities) first =
        contribution.made ((context.withSeverities severities).severity descriptor) first ∧
      check (context.withSeverities severitiesToo) second =
        contribution.made ((context.withSeverities severitiesToo).severity descriptor) second

/-- Every check of the checker is impartial. -/
def Checker.IsImpartial (checker : Checker) (context : Context) (hidden : Option String) : Prop :=
  ∀ node, Impartial checker.descriptor context hidden fun context => checker.check context node

namespace Impartial

variable {descriptor : Descriptor} {context : Context} {hidden : Option String}

theorem nothing (result : CheckResult) :
    Impartial descriptor context hidden fun _ progress => (result, progress) := by
  intro severities severitiesToo first second quiet quietToo alike
  refine ⟨⟨[], [], result⟩, ⟨List.forall_mem_nil _, List.forall_mem_nil _⟩, ?_, ?_⟩
  · simp only [Contribution.made, Contribution.findingsAt, Progress.adding, List.map_nil,
      List.append_nil]
  · simp only [Contribution.made, Contribution.findingsAt, Progress.adding, List.map_nil,
      List.append_nil]

/-- A check that reports findings of which only the severities depend on the severities of the
settings and on what may be hidden. -/
theorem pushAll (findings : Context → Progress → List Finding)
    (own : ∀ progress, ∀ finding ∈ findings context progress, finding.ruleId = descriptor.id)
    (same : ∀ severities (first second : Progress), first.reporter.Alike hidden second.reporter →
      findings (context.withSeverities severities) second = (findings context first).map
        (·.withSeverity ((context.withSeverities severities).severity descriptor))) :
    Impartial descriptor context hidden fun context progress =>
      (.done, progress.pushAll (findings context progress)) := by
  intro severities severitiesToo first second quiet quietToo alike
  refine ⟨⟨findings context first, [], .done⟩, ⟨own first, List.forall_mem_nil _⟩, ?_, ?_⟩
  · change (CheckResult.done, first.pushAll (findings _ first)) = _
    rw [Progress.pushAll_eq_adding quiet, same severities first first (.refl _ _)]
    rfl
  · change (CheckResult.done, second.pushAll (findings _ second)) = _
    rw [Progress.pushAll_eq_adding quietToo, same severitiesToo first second alike]
    rfl

/-- What is impartial is told by what it does with a quiet signal. -/
theorem congr {check checkToo : Context → Progress → CheckResult × Progress}
    (impartial : Impartial descriptor context hidden check)
    (same : ∀ severities (progress : Progress), progress.signal = .quiet →
      checkToo (context.withSeverities severities) progress =
        check (context.withSeverities severities) progress) :
    Impartial descriptor context hidden checkToo := by
  intro severities severitiesToo first second quiet quietToo alike
  rw [same severities first quiet, same severitiesToo second quietToo]
  exact impartial severities severitiesToo first second quiet quietToo alike

end Impartial

/-- What a run of a checker over a node contributes: the check, and a failure that is its end. -/
def Contribution.recorded (contribution : Contribution) (checker : Checker) (node : Node) :
    Contribution :=
  contribution.append ⟨[], (contribution.result.failureMessage?.map
    (.of checker.descriptor.id (.node node.kind) node.span)).toList, contribution.result⟩

namespace Checker

variable {checker : Checker} {context : Context}

theorem record_made (checker : Checker) (node : Node) (contribution : Contribution)
    (severity : Severity) (progress : Progress) :
    checker.record node contribution.result (contribution.made severity progress).2 =
      ((contribution.recorded checker node).made severity progress).2 := by
  rw [Contribution.recorded, Contribution.made_append, record]
  cases contribution.result.failureMessage? with
  | none =>
      simp only [Contribution.made, Contribution.findingsAt, Progress.adding, Option.map_none,
        Option.toList_none, List.map_nil, List.append_nil]
  | some message =>
      simp only [Contribution.made, Contribution.findingsAt, Progress.adding, Option.map_some,
        Option.toList_some, List.map_nil, List.append_nil, Progress.recordFailure]

theorem own_recorded {contribution : Contribution}
    (own : contribution.Own checker.descriptor.id) (node : Node) :
    (contribution.recorded checker node).Own checker.descriptor.id := by
  refine own.append ⟨List.forall_mem_nil _, fun failure member => ?_⟩
  obtain ⟨message, -, rfl⟩ := Option.map_eq_some_iff.mp (Option.mem_toList.mp member)
  rfl

theorem run_of_made {node : Node} {progress : Progress} {severity : Severity}
    {contribution : Contribution} (on : context.severityFor? checker.descriptor = some severity)
    (check : checker.check context node progress =
      contribution.made (context.severity checker.descriptor) progress) :
    checker.run context node progress = (contribution.result.flow,
      ((contribution.recorded checker node).made severity progress).2) := by
  have told : context.severity checker.descriptor = severity := by
    rw [Context.severity, on, Option.getD_some]
  rw [run_of_on node progress on, check, told]
  exact congrArg (Prod.mk _) (checker.record_made node contribution severity progress)

end Checker

/-! ### Built-in checkers -/

namespace Casing

variable (context : Context) (severities : Dict RuleSeverity)

theorem writtenFinding?_severities (token : Token) :
    writtenFinding? (context.withSeverities severities) token =
      (writtenFinding? context token).map
        (·.withSeverity ((context.withSeverities severities).severity descriptor)) := by
  unfold writtenFinding?
  change (context.settings.casing.fix? token.text).map _ = _
  cases context.settings.casing.fix? token.text <;> rfl

theorem inferredFinding?_severities (expression : Node) :
    inferredFinding? (context.withSeverities severities) expression =
      (inferredFinding? context expression).map
        (·.withSeverity ((context.withSeverities severities).severity descriptor)) := by
  unfold inferredFinding?
  cases expression.inferredName? with
  | none => rfl
  | some name =>
      change (context.settings.casing.fix? name).bind _ =
        ((context.settings.casing.fix? name).bind _).map _
      cases context.settings.casing.fix? name <;> rfl

theorem elementFinding?_severities (element : TupleElement) :
    elementFinding? (context.withSeverities severities) element =
      (elementFinding? context element).map
        (·.withSeverity ((context.withSeverities severities).severity descriptor)) := by
  unfold elementFinding?
  change (if checksWritten context then _ else _) = _
  split
  · rw [Option.map_bind]
    exact congrArg _ (funext (writtenFinding?_severities context severities))
  · rfl

theorem argumentFinding?_severities (argument : Argument) :
    argumentFinding? (context.withSeverities severities) argument =
      (argumentFinding? context argument).map
        (·.withSeverity ((context.withSeverities severities).severity descriptor)) := by
  unfold argumentFinding?
  cases argument.nameColon? with
  | some label =>
      change (if checksWritten context then _ else _) = Option.map _ (if _ then _ else _)
      split
      · rw [Option.map_bind]
        exact congrArg _ (funext (writtenFinding?_severities context severities))
      · rfl
  | none =>
      change (if checksInferred context then _ else _) = Option.map _ (if _ then _ else _)
      split
      · rw [Option.map_bind]
        exact congrArg _ (funext (inferredFinding?_severities context severities))
      · rfl

theorem findings_severities (node : Node) :
    findings (context.withSeverities severities) node = (findings context node).map
      (·.withSeverity ((context.withSeverities severities).severity descriptor)) := by
  unfold findings
  cases node.as? .tupleType with
  | some tuple =>
      simp only [List.map_filterMap]
      exact congrArg (List.filterMap · _) (funext (elementFinding?_severities context severities))
  | none =>
      cases node.as? .tupleExpression with
      | some tuple =>
          simp only [List.map_filterMap]
          exact congrArg (List.filterMap · _)
            (funext (argumentFinding?_severities context severities))
      | none => rfl

end Casing

namespace AttributeList

theorem findings_severities (context : Context) (severities : Dict RuleSeverity) (node : Node) :
    findings (context.withSeverities severities) node = (findings context node).map
      (·.withSeverity ((context.withSeverities severities).severity descriptor)) := by
  unfold findings finding?
  cases node.as? .attribute with
  | none => rfl
  | some attr =>
      change (Option.bind (Attribute.argumentList? attr) _).toList =
        (Option.bind (Attribute.argumentList? attr) _).toList.map _
      cases Attribute.argumentList? attr with
      | none => rfl
      | some list =>
          dsimp only [Option.bind_some]
          split <;> rfl

end AttributeList

namespace AnonymousMethodList

/-- With a host that leaves the signal alone the check reports the finding, if there is one. -/
theorem check_of_unraising {context : Context}
    (unraising : ∀ id, context.unit.model.raises id = false) (node : Node) {progress : Progress}
    (quiet : progress.signal = .quiet) : check context node progress =
      (.done, progress.pushAll (finding? context node).toList) := by
  have silent : context.silent = context :=
    congrArg (Context.mk · context.settings) (Engine.silent_of_unraising unraising)
  have asked := isRemovable_silent context node
  rw [silent] at asked
  unfold check finding?
  cases emptyList? node with
  | none => rfl
  | some list =>
      rw [quiet]
      dsimp only
      rw [asked, ← quiet]
      cases removable context node <;> rfl

theorem findings_severities (context : Context) (severities : Dict RuleSeverity) (node : Node) :
    (finding? (context.withSeverities severities) node).toList = (finding? context node).toList.map
      (·.withSeverity ((context.withSeverities severities).severity descriptor)) := by
  unfold finding?
  cases emptyList? node with
  | none => rfl
  | some list =>
      change (if removable context node then _ else none : Option Finding).toList = _
      dsimp only [Option.bind_some]
      split <;> rfl

end AnonymousMethodList

/-- The built-in checkers pay no attention to severities nor to what has been reported. -/
theorem Builtin.isImpartial {context : Context}
    (unraising : ∀ id, context.unit.model.raises id = false) (hidden : Option String) :
    ∀ checker ∈ Builtin.checkers, checker.IsImpartial context hidden := by
  intro checker member node
  simp only [checkers, List.mem_cons, List.not_mem_nil, or_false] at member
  rcases member with rfl | rfl | rfl
  · exact .pushAll (fun context _ => Casing.findings context node)
      (fun _ => Casing.findings_ruleId context node)
      fun severities _ _ _ => Casing.findings_severities context severities node
  · refine .congr (.pushAll (fun context _ => (AnonymousMethodList.finding? context node).toList)
      (fun _ => AnonymousMethodList.finding?_ruleId context node)
      fun severities _ _ _ => AnonymousMethodList.findings_severities context severities node) ?_
    intro severities progress quiet
    have still : ∀ id, (context.withSeverities severities).unit.model.raises id = false := unraising
    exact AnonymousMethodList.check_of_unraising still node quiet
  · exact .pushAll (fun context _ => AttributeList.findings context node)
      (fun _ => AttributeList.findings_ruleId context node)
      fun severities _ _ _ => AttributeList.findings_severities context severities node

/-! ### Scripts -/

namespace Script

/-- A term that neither shows the severity nor tells anything of a hidden rule. -/
def Term.isImpartial (hidden : Option String) : Term → Bool
  | .severity => false
  | .reported | .failed => hidden.isNone
  | .literal _ | .nodeKind | .nodeText | .file | .source | .namedTuples | .inferredNames | .casing
  | .language | .method => true

mutual

/-- An action that shows such terms only, and does not raise the signal. -/
def Action.isImpartial (hidden : Option String) : Action → Bool
  | .report args _ | .emit args _ => args.all (Term.isImpartial hidden)
  | .when _ actions => Action.allImpartial hidden actions
  | .raise => false
  | .look | .fail _ | .crash _ => true

def Action.allImpartial (hidden : Option String) : List Action → Bool
  | [] => true
  | action :: actions => action.isImpartial hidden && Action.allImpartial hidden actions

end

section Run

variable (descriptor : Descriptor) (context : Context) (node : Node) {hidden : Option String}

theorem Term.value_severities {first second : Progress}
    (alike : first.reporter.Alike hidden second.reporter) (severities : Dict RuleSeverity)
    {term : Term} (impartial : term.isImpartial hidden = true) :
    term.value descriptor (context.withSeverities severities) node second =
      term.value descriptor context node first := by
  cases term with
  | severity => cases impartial
  | reported =>
      cases hidden with
      | some ruleId => cases impartial
      | none => exact congrArg toString alike.length_findings
  | failed =>
      cases hidden with
      | some ruleId => cases impartial
      | none => exact congrArg toString alike.length_failures
  | _ => rfl

theorem finding_severities {first second : Progress}
    (alike : first.reporter.Alike hidden second.reporter) (severities : Dict RuleSeverity)
    {args : List Term} (impartial : args.all (Term.isImpartial hidden) = true) :
    finding descriptor (context.withSeverities severities) node second args =
      (finding descriptor context node first args).withSeverity
        ((context.withSeverities severities).severity descriptor) := by
  have values : args.map (Term.value descriptor (context.withSeverities severities) node second) =
      args.map (Term.value descriptor context node first) :=
    List.map_congr_left fun term member =>
      Term.value_severities descriptor context node alike severities
        (List.all_eq_true.mp impartial term member)
  rw [finding, values]
  rfl

theorem foldl_withSuggestion (found : Finding) (severity : Severity)
    (suggestions : List Suggestion) :
    suggestions.foldl .withSuggestion (found.withSeverity severity) =
      (suggestions.foldl .withSuggestion found).withSeverity severity := by
  induction suggestions generalizing found with
  | nil => rfl
  | cons suggestion suggestions ih => exact ih (found.withSuggestion suggestion)

theorem ruleId_foldl_withSuggestion (found : Finding) (suggestions : List Suggestion) :
    (suggestions.foldl .withSuggestion found).ruleId = found.ruleId := by
  induction suggestions generalizing found with
  | nil => rfl
  | cons suggestion suggestions ih => exact ih (found.withSuggestion suggestion)

mutual

theorem Action.run_impartial : (action : Action) → action.isImpartial hidden = true →
    Impartial descriptor context hidden fun context progress =>
      action.run descriptor context node progress
  | .report args properties, impartial => by
      simp only [Action.run]
      refine .pushAll (fun context progress =>
        [(finding descriptor context node progress args).withProperties properties]) ?_ ?_
      · intro progress found member
        rw [List.mem_singleton.mp member]
        rfl
      · intro severities first second alike
        rw [finding_severities descriptor context node alike severities impartial]
        rfl
  | .emit args suggestions, impartial => by
      simp only [Action.run]
      refine .pushAll (fun context progress => [(relocated context node suggestions).foldl
        .withSuggestion (finding descriptor context node progress args)]) ?_ ?_
      · intro progress found member
        rw [List.mem_singleton.mp member, ruleId_foldl_withSuggestion]
        rfl
      · intro severities first second alike
        rw [finding_severities descriptor context node alike severities impartial,
          foldl_withSuggestion]
        rfl
  | .when text actions, impartial => by
      by_cases same : node.text = text
      · simp only [Action.run, if_pos same]
        exact Action.runAll_impartial actions impartial
      · simp only [Action.run, if_neg same]
        exact .nothing .done
  | .look, _ => by
      refine .congr (.nothing .done) fun severities progress quiet => ?_
      rw [Action.run, Progress.look_of_quiet quiet, quiet]
      rfl
  | .fail error, _ => .nothing (.failed error)
  | .crash message, _ => .nothing (.crashed message)

theorem Action.runAll_impartial : (actions : List Action) →
    Action.allImpartial hidden actions = true →
    Impartial descriptor context hidden fun context progress =>
      Action.runAll descriptor context node progress actions
  | [], _ => .nothing .done
  | action :: actions, impartial => by
      rw [Action.allImpartial, Bool.and_eq_true] at impartial
      intro severities severitiesToo first second quiet quietToo alike
      obtain ⟨contribution, own, ran, ranToo⟩ := Action.run_impartial action impartial.1
        severities severitiesToo first second quiet quietToo alike
      dsimp only at ran ranToo ⊢
      rw [Action.runAll, Action.runAll, ran, ranToo]
      obtain ⟨findings, failures, result⟩ := contribution
      cases result with
      | done =>
          have onward := Contribution.alike_made alike ⟨findings, failures, .done⟩
            ((context.withSeverities severities).severity descriptor)
            ((context.withSeverities severitiesToo).severity descriptor)
          obtain ⟨further, ownToo, rest, restToo⟩ := Action.runAll_impartial actions impartial.2
            severities severitiesToo (Contribution.made _ _ first).2 (Contribution.made _ _ second).2
            quiet quietToo onward
          refine ⟨.append ⟨findings, failures, .done⟩ further, own.append ownToo, ?_, ?_⟩
          · exact rest.trans (Contribution.made_append ..).symm
          · exact restToo.trans (Contribution.made_append ..).symm
      | failed error => exact ⟨⟨findings, failures, .failed error⟩, own, rfl, rfl⟩
      | crashed message => exact ⟨⟨findings, failures, .crashed message⟩, own, rfl, rfl⟩

end

end Run

/-- A script that neither shows the severity nor raises the signal is impartial. If it does not show
how much has been reported, it pays no attention to any rule. -/
theorem isImpartial (descriptor : Descriptor) (kinds : List Kind) {actions : List Action}
    {hidden : Option String} (impartial : Action.allImpartial hidden actions = true)
    (context : Context) : (checker descriptor kinds actions).IsImpartial context hidden :=
  fun node => Action.runAll_impartial descriptor context node actions impartial

end Script

end TreeLint
