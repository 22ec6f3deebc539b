import TreeLint.Analysis.Unit
import TreeLint.Finding.Reporter
import TreeLint.Settings.Resolved

/-!
# Checkers

A checker is a rule with its way of checking a node. It reads from a context, which is the same for
all nodes of a unit, and takes the progress of the pass to its progress after the node. A checker
that fails or crashes keeps what it reported before.
-/

namespace TreeLint

/-- What a checker may read: the unit and the settings of the pass. -/
structure Context where
  unit : AnalysisUnit
  settings : Settings

namespace Context

/-- The source text of the unit. -/
def source (context : Context) : String :=
  context.unit.tree.text

/-- The location of a span of the unit. -/
def location (context : Context) (span : Span) : Location :=
  .ofSpan (.ofText context.source) span context.source context.unit.path

/-- The severity of a rule's findings; none when the rule is off. -/
def severityFor? (context : Context) (descriptor : Descriptor) : Option Severity :=
  context.settings.severityFor? descriptor

/-- The severity of a rule's findings, which is the rule's default should the rule be off. -/
def severity (context : Context) (descriptor : Descriptor) : Severity :=
  (context.severityFor? descriptor).getD descriptor.defaultSeverity

/-- A finding of a described rule about a span of the unit. -/
def finding (context : Context) (descriptor : Descriptor) (span : Span) (args : List String) :
    Finding :=
  .ofRule descriptor (context.severity descriptor) (context.location span) args

end Context

/-- How the check of one node ends: normally, with an error, or with a crash, of which there may
be a message. -/
inductive CheckResult where
  | done
  | failed (error : LintError)
  | crashed (message : Option String)
deriving Repr, DecidableEq

namespace CheckResult

/-- Whether the check ended because the pass is to stop. -/
def isCancelled : CheckResult → Bool
  | .failed error => error.isCancelled
  | .done | .crashed _ => false

/-- The message of the failure that a result is recorded as. Neither a normal end nor a request to
stop is a failure. -/
def failureMessage? : CheckResult → Option String
  | .done => none
  | .failed error => if error.isCancelled then none else some error.message
  | .crashed message => some ("checker panicked: " ++ message.getD "unknown panic payload")

end CheckResult

/-- A rule with the kinds of nodes it declares to check and its way of checking a node. -/
structure Checker where
  descriptor : Descriptor
  kinds : List Kind
  check : Context → Node → Progress → CheckResult × Progress

/-- A checker that reports the findings of a function of the context and the node. -/
def Checker.ofFindings (descriptor : Descriptor) (kinds : List Kind)
    (findings : Context → Node → List Finding) : Checker where
  descriptor
  kinds
  check := fun context node progress => (.done, progress.pushAll (findings context node))

end TreeLint
