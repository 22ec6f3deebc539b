import TreeLint.Proofs.Rule.Removal

/-!
# What the built-in rules find

Each kind of nodes has at most one built-in rule, so that dispatch to a node reports what this rule
has to report about it. A pass of the built-in rules that ends with the signal unraised has
reported what is to be reported about every node, in the order of the nodes
(`TreeLint.Engine.findings_of_unraised`); so has each pass with a host that never raises the signal
(`TreeLint.Engine.findings_silent`).
-/

namespace TreeLint

theorem Checker.runAll_single (checker : Checker) (context : Context) (node : Node)
    (progress : Progress) :
    runAll context node progress [checker] = checker.run context node progress := by
  rw [runAll_cons]
  rcases checker.run context node progress with ⟨flow, progress⟩
  cases flow <;> rfl

namespace Builtin

/-- The rule for the nodes of a kind, if there is one. -/
def ruleFor? : NodeKind → Option ReportingRule
  | .tupleType | .tupleExpression => some Casing.rule
  | .anonymousMethodExpression => some AnonymousMethodList.rule
  | .attribute => some AttributeList.rule
  | _ => none

theorem ruleFor?_eq_some {kind : NodeKind} {rule : ReportingRule}
    (chosen : ruleFor? kind = some rule) :
    rule = Casing.rule ∨ rule = AnonymousMethodList.rule ∨ rule = AttributeList.rule := by
  unfold ruleFor? at chosen
  split at chosen <;> cases chosen
  · exact .inl rfl
  · exact .inl rfl
  · exact .inr (.inl rfl)
  · exact .inr (.inr rfl)

theorem checkersFor (kind : NodeKind) : Registry.builtin.checkersFor (.node kind) =
    ((ruleFor? kind).map (·.checker)).toList := by
  cases kind <;> rfl

/-- What the rules have to report about a node. -/
def findings (context : Context) (node : Node) : List Finding :=
  match ruleFor? node.kind with
  | none => []
  | some rule => rule.reported context node

theorem findings_of_rule {context : Context} {node : Node} {kind : NodeKind} {rule : ReportingRule}
    (same : node.kind = kind) (chosen : ruleFor? kind = some rule) :
    findings context node = rule.reported context node := by
  rw [findings, same, chosen]

theorem dispatch_reports (context : Context) (node : Node) (progress : Progress)
    (tied : progress.reporter.tied = true) :
    Reports (findings context node) progress (Registry.builtin.dispatch context node progress) := by
  rw [findings, Registry.dispatch, checkersFor]
  cases ruleFor? node.kind with
  | none => exact .nothing progress
  | some rule =>
      rw [Option.map_some, Option.toList_some, Checker.runAll_single]
      exact rule.run_reports context node tied

theorem dispatch_quiet (context : Context) (node : Node) (progress : Progress)
    (quiet : progress.signal = .quiet) :
    (Registry.builtin.dispatch context.silent node progress).2.signal = .quiet := by
  rw [Registry.dispatch, checkersFor]
  cases ruleFor? node.kind with
  | none => exact quiet
  | some rule =>
      rw [Option.map_some, Option.toList_some, Checker.runAll_single]
      exact rule.run_quiet context node quiet

theorem findings_silent (context : Context) (node : Node) :
    findings context.silent node = findings context node := by
  unfold findings
  cases ruleFor? node.kind with
  | none => rfl
  | some rule => exact rule.reported_silent context node

theorem findings_of_childless (context : Context) {node : Node} (childless : node.children = []) :
    findings context node = [] := by
  unfold findings
  cases ruleFor? node.kind with
  | none => rfl
  | some rule => exact rule.reported_of_childless context node childless

end Builtin

namespace Engine

/-- The engine of the built-in rules. -/
def builtin (settings : Settings) : Engine :=
  ⟨.builtin, fun _ => settings⟩

/-- What a pass of the built-in rules has to report. -/
def complete (settings : Settings) (unit : AnalysisUnit) : List Finding :=
  unit.tree.root.descendants.flatMap (Builtin.findings ⟨unit, settings⟩)

variable (settings : Settings) (unit : AnalysisUnit) (signal : Signal)

theorem pass_reports : Reports (complete settings unit) (.start signal true)
    ((builtin settings).pass unit signal) :=
  (builtin settings).traverse_reports ⟨unit, settings⟩ (Builtin.dispatch_reports _) rfl _

variable {settings unit signal} in
/-- A pass that ends with the signal unraised has reported everything. -/
theorem findings_of_unraised
    (unraised : ((builtin settings).analyze unit signal).2.raised = false) :
    ((builtin settings).pass unit signal).2.reporter.findings = complete settings unit :=
  ((pass_reports settings unit signal).complete unraised).2

/-- With a host that leaves the signal alone a quiet signal stays quiet. -/
theorem signal_silent : ((builtin settings).analyze unit.silent .quiet).2 = .quiet := by
  have quiet : (Progress.start .quiet true).signal = .quiet := rfl
  exact (builtin settings).traverse_quiet ⟨unit.silent, settings⟩ unit.tree.root.descendants
    (fun node _ => Builtin.dispatch_quiet ⟨unit, settings⟩ node) quiet

theorem complete_silent : complete settings unit.silent = complete settings unit := by
  unfold complete
  exact congrArg (List.flatMap · unit.tree.root.descendants)
    (funext (Builtin.findings_silent ⟨unit, settings⟩))

/-- A host that leaves the signal alone gets everything. -/
theorem findings_silent :
    ((builtin settings).pass unit.silent .quiet).2.reporter.findings = complete settings unit := by
  rw [← complete_silent]
  apply findings_of_unraised
  rw [signal_silent]
  rfl

end Engine

end TreeLint
