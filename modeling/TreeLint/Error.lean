/-!
# Errors of a pass

What can stop a rule or the analysis of a unit. Cancellation is no defect: it is how a host ends an
analysis early.
-/

namespace TreeLint

/-- An error of a rule, of the configuration, or the request to stop. -/
inductive LintError where
  | configuration (message : String)
  | rule (ruleId message : String)
  | cancelled
deriving Repr, DecidableEq

/-- The kinds of errors. -/
inductive ErrorKind where
  | configuration | rule | cancelled
deriving Repr, DecidableEq

def ErrorKind.name : ErrorKind → String
  | .configuration => "Config"
  | .rule => "Rule"
  | .cancelled => "Cancelled"

namespace LintError

def kind : LintError → ErrorKind
  | .configuration _ => .configuration
  | .rule _ _ => .rule
  | .cancelled => .cancelled

def message : LintError → String
  | .configuration message => s!"Configuration error: {message}"
  | .rule ruleId message => s!"Rule error in '{ruleId}': {message}"
  | .cancelled => "Analysis cancelled"

/-- Whether the error is the request to stop. -/
def isCancelled (error : LintError) : Bool :=
  error.kind = .cancelled

end LintError

end TreeLint
