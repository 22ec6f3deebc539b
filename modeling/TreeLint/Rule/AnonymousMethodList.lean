import TreeLint.Rule.Checker
import TreeLint.Symbols.Overload
import TreeLint.Tree.View

/-!
# Empty parameter lists of anonymous methods

The parameter list of an anonymous method can be removed when it has no parameters, unless the
anonymous method is an argument of a call. Then the call has to be bound to a method, and without
the list no other overload of that method may fit.
-/

namespace TreeLint.AnonymousMethodList

def descriptor : Descriptor where
  id := "maintainability/anonymous-method-parentheses"
  code := "CL2001"
  name := "Remove unnecessary parenthesis"
  category := .maintainability
  defaultSeverity := .warning
  enabledByDefault := true
  message := "Anonymous method has an empty parameter list that can be removed"

/-- Whether nodes of a kind are the argument lists of calls. -/
def isArgumentList (kind : NodeKind) : Bool :=
  kind = .argumentList || kind = .bracketedArgumentList

/-- An argument of a call: the call, and the position of the argument in the argument list. -/
structure CallArgument where
  call : Node
  position : Nat

def callArgument? (node : Node) : Option CallArgument := do
  let argument ← (← node.parent?).as? .argument
  let list ← argument.node.parent?
  guard (isArgumentList list.kind)
  let call ← list.parent?
  guard call.kind.callForm?.isSome
  let position ← list.positionOf? argument
  return ⟨call, position⟩

/-- Whether the list of an anonymous method can be removed, and the signal after the queries this
needs. There is no answer when the pass is to stop. -/
def isRemovable (context : Context) (node : Node) (signal : Signal) : Option Bool × Signal :=
  match callArgument? node with
  | none => (some true, signal)
  | some argument =>
      match context.unit.model.boundMethod? argument.call with
      | none => (some false, signal)
      | some method =>
          let (verdict, signal) := context.unit.model.resolve method argument.position signal
          (verdict.map (·.isSafe), signal)

/-- The parameter list of an anonymous method, if it has no parameters. -/
def emptyList? (node : Node) : Option ParameterList := do
  let anonymous ← node.as? .anonymousMethodExpression
  let list ← anonymous.node.parameterList?
  guard list.parameters.isEmpty
  return list

def finding (context : Context) (list : ParameterList) : Finding :=
  (context.finding descriptor list.node.span []).withSuggestion
    (.deletion "Remove the empty parameter list" (context.location list.node.span))

def check (context : Context) (node : Node) (progress : Progress) : CheckResult × Progress :=
  match emptyList? node with
  | none => (.done, progress)
  | some list =>
      let (removable, signal) := isRemovable context node progress.signal
      let progress := { progress with signal }
      match removable with
      | none => (.failed .cancelled, progress)
      | some true => (.done, progress.push (finding context list))
      | some false => (.done, progress)

def checker : Checker where
  descriptor
  kinds := [.node .anonymousMethodExpression]
  check

end TreeLint.AnonymousMethodList
