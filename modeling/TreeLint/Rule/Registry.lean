import TreeLint.Rule.Builtin

/-!
# Registries

A registry says which checkers check the nodes of each kind. The checkers of a node run in the order
of their registration. Checkers of rules that are off do not run. A checker that fails or crashes
is recorded as a failure and the others still run; only the request to stop ends the run.
-/

namespace TreeLint

/-- The checkers of each kind that has some, and the registered rules in the order of their first
registration. -/
structure Registry where
  checkers : List (Kind × List Checker)
  descriptors : List Descriptor
  distinct : (checkers.map (·.1)).Nodup

/-- Whether a run goes on or has been asked to stop. -/
inductive Flow where
  | goesOn | stopped
deriving Repr, DecidableEq

namespace Registry

/-- A registry without registrations. -/
def empty : Registry :=
  ⟨[], [], .nil⟩

/-- The checkers of the nodes of a kind, in the order of their registration. -/
def checkersFor (registry : Registry) (kind : Kind) : List Checker :=
  (registry.checkers.lookup kind).getD []

/-- Adds a description at the end, unless there is one with the same id. -/
def addDescriptor (known : List Descriptor) (descriptor : Descriptor) : List Descriptor :=
  if known.any (·.id = descriptor.id) then known else known ++ [descriptor]

/-- Registers a checker for a kind, behind the checkers that the kind has. -/
def register (registry : Registry) (kind : Kind) (checker : Checker) : Registry where
  checkers :=
    (kind, registry.checkersFor kind ++ [checker]) :: registry.checkers.filter (·.1 ≠ kind)
  descriptors := addDescriptor registry.descriptors checker.descriptor
  distinct := by
    rw [List.map_cons, List.nodup_cons]
    refine ⟨fun listed => ?_, (List.filter_sublist.map _).nodup registry.distinct⟩
    obtain ⟨entry, chosen, same⟩ := List.mem_map.mp listed
    exact of_decide_eq_true (List.mem_filter.mp chosen).2 same

/-- Registers a checker for every kind that it declares. -/
def registerChecker (registry : Registry) (checker : Checker) : Registry :=
  checker.kinds.foldl (·.register · checker) registry

/-- Registers checkers one after the other. -/
def registerAll (registry : Registry) (checkers : List Checker) : Registry :=
  checkers.foldl registerChecker registry

/-- The registry of the built-in rules. -/
def builtin : Registry :=
  empty.registerAll Builtin.checkers

/-- The registered rule with an id. -/
def descriptor? (registry : Registry) (ruleId : String) : Option Descriptor :=
  registry.descriptors.find? (·.id = ruleId)

/-- Whether nothing has been registered. -/
def isEmpty (registry : Registry) : Bool :=
  registry.checkers.isEmpty

end Registry

namespace Checker

/-- The progress after a check that ended with a result: a failure is recorded. -/
def record (checker : Checker) (node : Node) (result : CheckResult) (progress : Progress) :
    Progress :=
  match result.failureMessage? with
  | some message =>
      progress.recordFailure (.of checker.descriptor.id (.node node.kind) node.span message)
  | none => progress

/-- Lets a checker check a node, unless its rule is off. -/
def run (checker : Checker) (context : Context) (node : Node) (progress : Progress) :
    Flow × Progress :=
  match context.severityFor? checker.descriptor with
  | none => (.goesOn, progress)
  | some _ =>
      let (result, progress) := checker.check context node progress
      (if result.isCancelled then .stopped else .goesOn, checker.record node result progress)

/-- Lets checkers check a node one after the other, until one of them asks to stop. -/
def runAll (context : Context) (node : Node) (progress : Progress) :
    List Checker → Flow × Progress
  | [] => (.goesOn, progress)
  | checker :: checkers =>
      match checker.run context node progress with
      | (.stopped, progress) => (.stopped, progress)
      | (.goesOn, progress) => runAll context node progress checkers

end Checker

/-- Lets all checkers of a node's kind check the node. -/
def Registry.dispatch (registry : Registry) (context : Context) (node : Node)
    (progress : Progress) : Flow × Progress :=
  Checker.runAll context node progress (registry.checkersFor (.node node.kind))

end TreeLint
