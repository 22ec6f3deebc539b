import TreeLint.Proofs.Analysis.Isolation
import TreeLint.Proofs.Finding.Order
import TreeLint.Proofs.Pass.Mirrors
import TreeLint.Proofs.Rule.Impartial

/-!
# What the severity of one rule decides

Settings can be given another severity for one rule, directly or through the configuration that they
are made of. In a pass over the same unit the checkers of the rule then report their findings with
this severity, or nothing if the rule is off now; everything else stays as it is
(`TreeLint.Progress.Mirrors`), as long as the checkers are impartial
(`TreeLint.Engine.override_acts_alone`). Without the assumptions on what other checkers see of the
rule, and on how checks of the rule end, this would be wrong
(`TreeLint.Engine.not_forall_switchesOffAlone`).
-/

namespace TreeLint

/-- The configuration with the severity of one rule. -/
def Configuration.withRuleSeverity (configuration : Configuration) (ruleId : String)
    (severity : RuleSeverity) : Configuration :=
  { configuration with rules := some ((configuration.rules.getD .empty).insert ruleId severity) }

namespace Settings

/-- Settings and the same settings with the severity of one rule, which has been given to the
settings themselves or to the configuration that they are made of. -/
inductive Overridden (ruleId : String) (severity : RuleSeverity) : Settings → Settings → Prop where
  | direct (settings : Settings) :
      Overridden ruleId severity settings (settings.withRuleSeverity ruleId severity)
  | configured (configuration : Configuration) :
      Overridden ruleId severity (ofConfiguration configuration)
        (ofConfiguration (configuration.withRuleSeverity ruleId severity))

variable {ruleId : String} {severity : RuleSeverity} {settings overridden : Settings}

theorem Overridden.eq (override : Overridden ruleId severity settings overridden) :
    overridden = settings.withRuleSeverity ruleId severity := by
  cases override with
  | direct settings => rfl
  | configured configuration => rfl

theorem severityFor?_withRuleSeverity (descriptor : Descriptor) :
    (settings.withRuleSeverity ruleId severity).severityFor? descriptor =
      if descriptor.id = ruleId then severity.severity? else settings.severityFor? descriptor := by
  unfold severityFor? withRuleSeverity
  rw [Dict.find?_insert]
  by_cases own : descriptor.id = ruleId
  · rw [if_pos own, if_pos own]
  · rw [if_neg own, if_neg own]

end Settings

/-! ### Checkers -/

/-- What a checker must be like for the severity of a rule to be the concern of this rule alone. -/
structure Checker.Discreet (checker : Checker) (context : Context) (ruleId : String)
    (severity : RuleSeverity) : Prop where
  /-- Checkers of other rules do not see what the rule reports, if it is to be off. -/
  others : checker.descriptor.id ≠ ruleId →
    checker.IsImpartial context (hiddenRule ruleId severity.severity?)
  own : checker.descriptor.id = ruleId → checker.IsImpartial context none
  enabled : checker.descriptor.id = ruleId → context.severityFor? checker.descriptor ≠ none
  /-- Checkers of the rule do not ask to stop, if the rule is to be off. -/
  goesOn : checker.descriptor.id = ruleId → severity = .off → ∀ node (progress : Progress),
    progress.signal = .quiet → (checker.check context node progress).1.isCancelled = false

/-- The context with the severity of one rule. -/
def Context.withRuleSeverity (context : Context) (ruleId : String) (severity : RuleSeverity) :
    Context :=
  context.withSeverities (context.settings.severities.insert ruleId severity)

theorem RuleSeverity.eq_off {severity : RuleSeverity} (none : severity.severity? = none) :
    severity = .off := by
  cases severity with
  | off => rfl
  | _ => cases none

/-- Two runs end in the same way, and with passes of which one mirrors the other. -/
def Flow.Mirrors (ruleId : String) (severity : RuleSeverity) (ran ranToo : Flow × Progress) : Prop :=
  ranToo.1 = ran.1 ∧ ran.2.Mirrors ruleId severity.severity? ranToo.2

theorem Flow.Mirrors.andThen {ruleId : String} {severity : RuleSeverity}
    {ran ranToo : Flow × Progress} (mirrors : Mirrors ruleId severity ran ranToo)
    {next nextToo : Progress → Flow × Progress}
    (onward : ∀ progress changed : Progress, progress.Mirrors ruleId severity.severity? changed →
      Mirrors ruleId severity (next progress) (nextToo changed)) :
    Mirrors ruleId severity (ran.1.andThen next ran.2) (ranToo.1.andThen nextToo ranToo.2) := by
  obtain ⟨flow, progress⟩ := ran
  obtain ⟨flowToo, changed⟩ := ranToo
  obtain ⟨rfl, mirrors⟩ := mirrors
  cases flowToo with
  | stopped => exact ⟨rfl, mirrors⟩
  | goesOn => exact onward progress changed mirrors

namespace Checker

variable {context : Context} {ruleId : String} {severity : RuleSeverity}

theorem Discreet.run {checker : Checker} (discreet : checker.Discreet context ruleId severity)
    (node : Node) {progress changed : Progress}
    (mirrors : progress.Mirrors ruleId severity.severity? changed) :
    Flow.Mirrors ruleId severity (checker.run context node progress)
      (checker.run (context.withRuleSeverity ruleId severity) node changed) := by
  have later : (context.withRuleSeverity ruleId severity).severityFor? checker.descriptor =
      if checker.descriptor.id = ruleId then severity.severity?
      else context.severityFor? checker.descriptor :=
    Settings.severityFor?_withRuleSeverity checker.descriptor
  by_cases own : checker.descriptor.id = ruleId
  · rw [if_pos own] at later
    obtain ⟨told, on⟩ := Option.ne_none_iff_exists'.mp (discreet.enabled own)
    unfold Flow.Mirrors
    cases given : severity.severity? with
    | none =>
        rw [given] at later mirrors
        obtain ⟨contribution, made, check, -⟩ := discreet.own own node context.settings.severities
          context.settings.severities progress progress mirrors.quiet mirrors.quiet (.refl _ _)
        have goesOn := discreet.goesOn own (RuleSeverity.eq_off given) node progress mirrors.quiet
        have ends : contribution.result.isCancelled = false :=
          (congrArg (·.1.isCancelled) check).symm.trans goesOn
        rw [run_of_made on check, run_of_off node changed later, CheckResult.flow, ends]
        have recorded := own_recorded made node
        rw [own] at recorded
        exact ⟨rfl, mirrors.made_hidden recorded told⟩
    | some given =>
        rw [given] at later mirrors
        obtain ⟨contribution, made, check, checkToo⟩ := discreet.own own node
          context.settings.severities (context.settings.severities.insert ruleId severity)
          progress changed mirrors.quiet mirrors.quietToo mirrors.alike
        rw [run_of_made on check, run_of_made later checkToo]
        have recorded := own_recorded made node
        rw [own] at recorded
        exact ⟨rfl, mirrors.made_own recorded told⟩
  · rw [if_neg own] at later
    cases on : context.severityFor? checker.descriptor with
    | none =>
        rw [on] at later
        rw [run_of_off node progress on, run_of_off node changed later]
        exact ⟨rfl, mirrors⟩
    | some told =>
        rw [on] at later
        obtain ⟨contribution, made, check, checkToo⟩ := discreet.others own node
          context.settings.severities (context.settings.severities.insert ruleId severity)
          progress changed mirrors.quiet mirrors.quietToo mirrors.alike
        rw [run_of_made on check, run_of_made later checkToo]
        exact ⟨rfl, mirrors.made_other (own_recorded made node) own told⟩

theorem runAll_mirrors {checkers : List Checker}
    (discreet : ∀ checker ∈ checkers, checker.Discreet context ruleId severity) (node : Node)
    {progress changed : Progress} (mirrors : progress.Mirrors ruleId severity.severity? changed) :
    Flow.Mirrors ruleId severity (runAll context node progress checkers)
      (runAll (context.withRuleSeverity ruleId severity) node changed checkers) := by
  induction checkers generalizing progress changed with
  | nil => exact ⟨rfl, mirrors⟩
  | cons checker checkers ih =>
      rw [runAll_cons, runAll_cons]
      refine ((discreet checker List.mem_cons_self).run node mirrors).andThen ?_
      intro progress changed mirrors
      exact ih (fun other member => discreet other (List.mem_cons_of_mem _ member)) mirrors

end Checker

namespace Engine

variable {registry : Registry} {ruleId : String} {severity : RuleSeverity}

/-- A traversal is mirrored, node after node. -/
theorem traverse_mirrors (settings settingsToo : AnalysisUnit → Settings) {context : Context}
    (discreet : ∀ registration ∈ registry.registrations,
      registration.checker.Discreet context ruleId severity)
    (nodes : List Node) {progress changed : Progress}
    (mirrors : progress.Mirrors ruleId severity.severity? changed) :
    Flow.Mirrors ruleId severity ((Engine.mk registry settings).traverse context progress nodes)
      ((Engine.mk registry settingsToo).traverse (context.withRuleSeverity ruleId severity) changed
        nodes) := by
  induction nodes generalizing progress changed with
  | nil => exact ⟨rfl, mirrors⟩
  | cons node nodes ih =>
      have dispatched : Flow.Mirrors ruleId severity (registry.dispatch context node progress)
          (registry.dispatch (context.withRuleSeverity ruleId severity) node changed) := by
        refine Checker.runAll_mirrors (fun checker member => ?_) node mirrors
        obtain ⟨registration, listed, rfl⟩ := Registry.exists_registration member
        exact discreet registration listed
      rw [traverse_cons, traverse_cons, Progress.look_of_quiet mirrors.quiet,
        Progress.look_of_quiet mirrors.quietToo, mirrors.quiet, mirrors.quietToo]
      exact dispatched.andThen fun progress changed mirrors => ih mirrors

/-- **The severity of a rule concerns the rule alone.** Settings are given another severity for one
rule, directly or through a configuration, and every checker is discreet about it. If the rule is
not to be off, the outcome has the same findings, those of the rule with the given severity, and the
same failures; if it is to be off, it has the findings and the failures of all other rules. Nothing
else changes, nor does the order. -/
theorem override_acts_alone (unit : AnalysisUnit) {settings overridden : Settings}
    (override : Settings.Overridden ruleId severity settings overridden)
    (discreet : ∀ registration ∈ registry.registrations,
      registration.checker.Discreet ⟨unit, settings⟩ ruleId severity) :
    (∀ given, severity.severity? = some given →
      ((Engine.mk registry fun _ => overridden).analyze unit .quiet).1.findings =
        ((Engine.mk registry fun _ => settings).analyze unit .quiet).1.findings.map (fun found =>
          if found.ruleId = ruleId then found.withSeverity given else found) ∧
      ((Engine.mk registry fun _ => overridden).analyze unit .quiet).1.failures =
        ((Engine.mk registry fun _ => settings).analyze unit .quiet).1.failures) ∧
    (severity = .off →
      ((Engine.mk registry fun _ => overridden).analyze unit .quiet).1.findings =
        ((Engine.mk registry fun _ => settings).analyze unit .quiet).1.findings.filter
          (·.ruleId ≠ ruleId) ∧
      ((Engine.mk registry fun _ => overridden).analyze unit .quiet).1.failures =
        ((Engine.mk registry fun _ => settings).analyze unit .quiet).1.failures.filter
          (·.ruleId ≠ ruleId)) ∧
    ((Engine.mk registry fun _ => overridden).analyze unit .quiet).1.cancelled =
      ((Engine.mk registry fun _ => settings).analyze unit .quiet).1.cancelled := by
  rw [override.eq]
  obtain ⟨flows, -, -, findings, failures⟩ :=
    traverse_mirrors (fun _ => settings) (fun _ => settings.withRuleSeverity ruleId severity)
      discreet unit.tree.root.descendants (.start ruleId severity.severity?)
  have listed : ((Engine.mk registry fun _ => settings.withRuleSeverity ruleId severity).analyze
        unit .quiet).1.findings =
      ((Engine.mk registry fun _ => settings).analyze unit .quiet).1.findings.filterMap
        (Finding.overridden ruleId severity.severity?) := by
    refine (congrArg Finding.sorted findings).trans (Finding.sorted_filterMap ?_ _)
    intro found changed result
    unfold Finding.overridden overriding at result
    split at result
    · obtain ⟨given, -, rfl⟩ := Option.map_eq_some_iff.mp result
      exact ⟨rfl, rfl⟩
    · cases result
      exact ⟨rfl, rfl⟩
  refine ⟨?_, ?_, ?_⟩
  · intro given on
    rw [on] at listed failures
    refine ⟨?_, failures.trans (Failure.filterMap_overridden_some ruleId given _)⟩
    rw [listed, Finding.overridden, filterMap_overriding_some]
  · rintro rfl
    refine ⟨?_, failures.trans (filterMap_overriding_none ..)⟩
    rw [listed, Finding.overridden]
    exact filterMap_overriding_none ..
  · exact congrArg (fun flow => decide (flow = Flow.stopped)) flows

/-! ### Built-in rules -/

/-- The built-in checkers are discreet about each other, for every host that leaves the signal
alone. -/
theorem discreet_builtin (context : Context)
    (unraising : ∀ id, context.unit.model.raises id = false) (severity : RuleSeverity)
    (enabled : ∀ checker ∈ Builtin.checkers, checker.descriptor.id = ruleId →
      context.severityFor? checker.descriptor ≠ none) :
    ∀ registration ∈ Registry.builtin.registrations,
      registration.checker.Discreet context ruleId severity := by
  intro registration registered
  have member := Registry.checker_of_mem_registerAll registered
  refine ⟨fun _ => Builtin.isImpartial unraising _ _ member,
    fun _ => Builtin.isImpartial unraising _ _ member, enabled _ member, ?_⟩
  intro _ _ node progress quiet
  simp only [Builtin.checkers, List.mem_cons, List.not_mem_nil, or_false] at member
  rcases member with casing | anonymous | attributes
  · rw [casing]
    rfl
  · rw [anonymous]
    change (AnonymousMethodList.check context node progress).1.isCancelled = false
    rw [AnonymousMethodList.check_of_unraising unraising node quiet]
    rfl
  · rw [attributes]
    rfl

/-- An attribute with an empty argument list, and a tuple type in it: two built-in rules have
something to report. -/
def mixed : AnalysisUnit :=
  .withoutSemantics "Mixed.cs" ⟨.attribute, [
    .node .tupleType [.node .tupleElement [.token .varKeyword "var", .token .identifier "Id"]],
    .node .attributeArgumentList []]⟩

theorem override_acts_alone_mixed :
    Settings.Overridden Casing.descriptor.id .error .default
      (Settings.default.withRuleSeverity Casing.descriptor.id .error) ∧
    (∀ severity, ∀ registration ∈ Registry.builtin.registrations,
      registration.checker.Discreet ⟨mixed, .default⟩ Casing.descriptor.id severity) ∧
    ((builtin .default).analyze mixed .quiet).1.findings.map
        (fun found => (found.ruleId, found.severity)) =
      [(Casing.descriptor.id, .warning), (AttributeList.descriptor.id, .warning)] ∧
    ((builtin (Settings.default.withRuleSeverity Casing.descriptor.id .error)).analyze mixed
        .quiet).1.findings.map (fun found => (found.ruleId, found.severity)) =
      [(Casing.descriptor.id, .error), (AttributeList.descriptor.id, .warning)] ∧
    ((builtin (Settings.default.withRuleSeverity Casing.descriptor.id .off)).analyze mixed
        .quiet).1.findings =
      ((builtin .default).analyze mixed .quiet).1.findings.filter
        (·.ruleId ≠ Casing.descriptor.id) := by
  have enabled : ∀ checker ∈ Builtin.checkers, checker.descriptor.id = Casing.descriptor.id →
      Context.severityFor? ⟨mixed, .default⟩ checker.descriptor ≠ none := by
    decide
  have discreet (severity : RuleSeverity) :=
    discreet_builtin ⟨mixed, .default⟩ (fun _ => rfl) severity enabled
  obtain ⟨raised, -, -⟩ := override_acts_alone mixed (.direct .default) (discreet .error)
  obtain ⟨-, off, -⟩ := override_acts_alone mixed (.direct .default) (discreet .off)
  refine ⟨.direct .default, discreet, by decide, ?_, (off rfl).1⟩
  refine (congrArg (List.map _) (raised .error rfl).1).trans ?_
  decide

/-! ### Checkers that look at other rules, or stop the pass -/

/-- To switch a rule off takes its findings and failures out of the outcome, and nothing else. -/
def SwitchesOffAlone (registry : Registry) (unit : AnalysisUnit) (settings : Settings)
    (ruleId : String) : Prop :=
  ((Engine.mk registry fun _ => settings.withRuleSeverity ruleId .off).analyze unit
      .quiet).1.findings =
    ((Engine.mk registry fun _ => settings).analyze unit .quiet).1.findings.filter
      (·.ruleId ≠ ruleId) ∧
  ((Engine.mk registry fun _ => settings.withRuleSeverity ruleId .off).analyze unit
      .quiet).1.failures =
    ((Engine.mk registry fun _ => settings).analyze unit .quiet).1.failures.filter
      (·.ruleId ≠ ruleId)

/-- A rule that carries out a script on the root of a file, and behind it one that reports with
given arguments. -/
def inTurn (actions : List Script.Action) (args : List Script.Term) : List Checker := [
  Script.checker (plainRule "style/first") [.node .compilationUnit] actions,
  Script.checker (plainRule "style/second") [.node .compilationUnit] [.report args .empty]]

theorem inTurn_impartial {actions : List Script.Action} {args : List Script.Term}
    (impartial : Script.Action.allImpartial none actions = true)
    (impartialToo : args.all (Script.Term.isImpartial none) = true) (context : Context) :
    ∀ registration ∈ (Registry.empty.registerAll (inTurn actions args)).registrations,
      registration.checker.IsImpartial context none := by
  intro registration member
  have second : Script.Action.allImpartial none [.report args .empty] = true :=
    Bool.and_eq_true_iff.mpr ⟨impartialToo, rfl⟩
  have listed := Registry.checker_of_mem_registerAll member
  simp only [inTurn, List.mem_cons, List.not_mem_nil, or_false] at listed
  rcases listed with same | same
  · rw [same]
    exact Script.isImpartial _ _ impartial context
  · rw [same]
    exact Script.isImpartial _ _ second context

/-- The second rule shows how much has been reported before. -/
def watching : Registry :=
  .registerAll .empty (inTurn [.report [] .empty] [.reported])

/-- The first rule asks to stop without a signal. -/
def halting : Registry :=
  .registerAll .empty (inTurn [.fail .cancelled] [])

/-- It takes more than impartial checkers for a rule to be switched off alone: other checkers may
show how much the rule reports, and what the rule keeps from being checked is checked when it is
off. -/
theorem not_forall_switchesOffAlone :
    ((∀ registration ∈ watching.registrations,
        registration.checker.IsImpartial ⟨bareFile, .default⟩ none) ∧
      (∀ registration ∈ watching.registrations,
        Settings.default.severityFor? registration.checker.descriptor ≠ none) ∧
      ¬ SwitchesOffAlone watching bareFile .default "style/first") ∧
    (∀ registration ∈ halting.registrations,
        registration.checker.IsImpartial ⟨bareFile, .default⟩ none) ∧
      (∀ registration ∈ halting.registrations,
        Settings.default.severityFor? registration.checker.descriptor ≠ none) ∧
      ¬ SwitchesOffAlone halting bareFile .default "style/first" := by
  refine ⟨⟨inTurn_impartial rfl rfl _, by decide, ?_⟩, inTurn_impartial rfl rfl _, by decide, ?_⟩
  · rintro ⟨findings, -⟩
    have args := congrArg (List.map Finding.messageArgs) findings
    have differs : [["0"]] ≠ [["1"]] := by decide
    exact differs args
  · rintro ⟨findings, -⟩
    have counts := congrArg List.length findings
    exact Nat.one_ne_zero counts

end Engine

end TreeLint
