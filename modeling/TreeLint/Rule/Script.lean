import TreeLint.Rule.Checker

/-!
# Scripted checkers

A script is a checker given as data: a list of actions that are carried out one after the other on
the node being checked. An action may end the check early. The arguments of a finding are texts
or things that are looked up at the time of the action.
-/

namespace TreeLint.Script

/-- An argument of a finding. -/
inductive Term where
  | literal (text : String)
  | nodeKind | nodeText | file | source | severity | namedTuples | inferredNames | casing
  | reported | failed | language | method
deriving Repr, DecidableEq

/-- What is looked up, with its written name. -/
def Term.variables : List (String × Term) := [
  ("$kind", .nodeKind), ("$text", .nodeText), ("$file", .file), ("$source", .source),
  ("$severity", .severity), ("$named", .namedTuples), ("$inferred", .inferredNames),
  ("$casing", .casing), ("$reported", .reported), ("$failed", .failed), ("$language", .language),
  ("$method", .method)]

/-- The argument that a text writes: something that is looked up, or else the text itself. -/
def Term.ofText (text : String) : Term :=
  (variables.lookup text).getD (.literal text)

/-- One action of a script. -/
inductive Action where
  | report (args : List Term) (properties : Dict String)
  | emit (args : List Term) (suggestions : List Suggestion)
  | when (text : String) (actions : List Action)
  | raise
  | look
  | fail (error : LintError)
  | crash (message : Option String)

/-- The name of a convention as a term of a script shows it. -/
def casingName : Convention → String
  | .camelCase => "CamelCase"
  | .pascalCase => "PascalCase"

/-- The method a node is bound to, as a term of a script shows it. -/
def methodText (model : SemanticModel) (node : Node) : String :=
  (((model.boundMethod? node).bind model.method?).map (·.text)).getD "none"

section Run

variable (descriptor : Descriptor) (context : Context) (node : Node)

/-- The text of an argument. -/
def Term.value (progress : Progress) : Term → String
  | .literal text => text
  | .nodeKind => node.kind.name
  | .nodeText => node.text
  | .file => context.unit.path
  | .source => context.source
  | .severity => ((context.severityFor? descriptor).map (·.word)).getD "none"
  | .namedTuples => toString context.unit.version.supportsNamedTuples
  | .inferredNames => toString context.unit.version.supportsInferredNames
  | .casing => casingName context.settings.casing
  | .reported => toString progress.findingCount
  | .failed => toString progress.failureCount
  | .language => context.unit.version.short
  | .method => methodText context.unit.model node

/-- The finding with the given arguments about the node. -/
def finding (progress : Progress) (args : List Term) : Finding :=
  context.finding descriptor node.span (args.map (Term.value descriptor context node progress))

/-- Suggestions put at the place of the node. -/
def relocated (suggestions : List Suggestion) : List Suggestion :=
  suggestions.map fun suggestion => { suggestion with location := context.location node.span }

mutual

/-- Carries out an action. -/
def Action.run (progress : Progress) : Action → CheckResult × Progress
  | .report args properties =>
      (.done, progress.push
        ((finding descriptor context node progress args).withProperties properties))
  | .emit args suggestions =>
      (.done, progress.push <| (relocated context node suggestions).foldl .withSuggestion
        (finding descriptor context node progress args))
  | .when text actions =>
      if node.text = text then Action.runAll progress actions else (.done, progress)
  | .raise => (.done, progress.raise)
  | .look =>
      let progress := progress.look
      (if progress.signal.raised then .failed .cancelled else .done, progress)
  | .fail error => (.failed error, progress)
  | .crash message => (.crashed message, progress)

/-- Carries out actions one after the other, until one of them ends the check. -/
def Action.runAll (progress : Progress) : List Action → CheckResult × Progress
  | [] => (.done, progress)
  | action :: actions =>
      match action.run progress with
      | (.done, progress) => Action.runAll progress actions
      | (result, progress) => (result, progress)

end

end Run

/-- The checker that carries out a script. -/
def checker (descriptor : Descriptor) (kinds : List Kind) (actions : List Action) : Checker where
  descriptor
  kinds
  check := fun context node progress => Action.runAll descriptor context node progress actions

end TreeLint.Script
