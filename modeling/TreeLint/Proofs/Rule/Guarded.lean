import TreeLint.Proofs.Rule.Decision
import TreeLint.Proofs.Rule.Names
import TreeLint.Proofs.Text.Cutting
import TreeLint.Proofs.Text.LineSearch
import TreeLint.Proofs.Tree.Coverage
import TreeLint.Rule.AttributeList

/-!
# Checks that watch their bounds

The built-in rules once more, with every partial step watched: the search for the line of an offset,
the length of a line up to an offset and of a span, the cuts of the source text, and the cuts of a
message template. A finding for which one of these steps is not possible is absent, and a check
crashes when it comes to an absent finding. At the nodes of the tree of the unit no finding is
absent, so that the checks that watch their bounds find what the rules find
(`TreeLint.Casing.guardedFindings_eq`, `TreeLint.AnonymousMethodList.guardedCheck_eq`,
`TreeLint.AttributeList.guardedFindings_eq`).
-/

namespace TreeLint

open Text

namespace Context

/-- The location of a span; absent when there is no way to an end of the span that stays in bounds,
and when the span ends in front of its start. -/
def guardedLocation? (context : Context) (span : Span) : Option Location := do
  let map := LineMap.ofText context.source
  let start ← map.guardedPosition? span.start context.source
  let stop ← map.guardedPosition? span.stop context.source
  let bytes ← Span.ofBounds? span.start span.stop
  return {
    file := context.unit.path
    line := start.line
    column := start.column
    endLine := some stop.line
    endColumn := some stop.column
    offset := span.start
    length := bytes.length
    span := some span }

/-- The finding of a described rule about a span; absent when the span has no location or the
template of the message is cut inside of a character. -/
def guardedFinding? (context : Context) (descriptor : Descriptor) (span : Span)
    (args : List String) : Option Finding := do
  let location ← context.guardedLocation? span
  let message ← fillCut? args descriptor.message.toList
  return { Finding.ofRule descriptor (context.severity descriptor) location args with
    message := String.ofList message }

variable {context : Context} {part : Part}

/-- Parts of the tree begin and end between characters of its text. -/
theorem guardedLocation?_of_placed (placed : part.Placed context.unit.tree) :
    context.guardedLocation? part.span = some (context.location part.span) := by
  obtain ⟨before, after, split, span⟩ := placed.covers
  have source : context.source.toList = before ++ part.chars ++ after :=
    String.toList_ofList.trans split
  have start := LineMap.guardedPosition?_ofText (source.trans (List.append_assoc ..))
  have stop := LineMap.guardedPosition?_ofText source
  rw [width_append] at stop
  rw [span]
  unfold guardedLocation?
  dsimp only
  rw [start, stop, Span.ofBounds?, if_pos (Nat.le_add_right _ _)]
  rfl

theorem guardedFinding?_of_placed (placed : part.Placed context.unit.tree)
    (descriptor : Descriptor) (args : List String) :
    context.guardedFinding? descriptor part.span args =
      some (context.finding descriptor part.span args) := by
  unfold guardedFinding?
  rw [guardedLocation?_of_placed placed, fillCut?_eq]
  rfl

end Context

/-- Submits findings one after the other, and crashes at the first absent one. -/
def Progress.pushBuilt (progress : Progress) : List (Option Finding) → CheckResult × Progress
  | [] => (.done, progress)
  | none :: _ => (.crashed none, progress)
  | some finding :: findings => (progress.push finding).pushBuilt findings

theorem Progress.pushBuilt_map_some (progress : Progress) (findings : List Finding) :
    progress.pushBuilt (findings.map some) = (.done, progress.pushAll findings) := by
  induction findings generalizing progress with
  | nil => rfl
  | cons finding findings ih => exact ih (progress.push finding)

/-- A checker that reports findings of which some may be absent. -/
def Checker.ofBuilt (descriptor : Descriptor) (kinds : List Kind)
    (findings : Context → Node → List (Option Finding)) : Checker where
  descriptor
  kinds
  check := fun context node progress => progress.pushBuilt (findings context node)

/-- Where all of its findings are there, such a checker reports them. -/
theorem Checker.ofBuilt_check {descriptor : Descriptor} {kinds : List Kind}
    {built : Context → Node → List (Option Finding)} {findings : Context → Node → List Finding}
    {context : Context} {node : Node}
    (present : built context node = (findings context node).map some) (progress : Progress) :
    (ofBuilt descriptor kinds built).check context node progress =
      (ofFindings descriptor kinds findings).check context node progress := by
  change progress.pushBuilt (built context node) = _
  rw [present]
  exact progress.pushBuilt_map_some _

/-! ### Casing of tuple element names

The outer option says whether there is something to report, the inner one whether it can be built
within bounds. -/

namespace Casing

section Definitions

variable (context : Context)

def guardedWritten? (token : Token) : Option (Option Finding) :=
  (context.settings.casing.fix? token.text).map fun fixed => do
    let place ← context.guardedLocation? token.span
    let found ← context.guardedFinding? descriptor token.span
      [token.text, context.settings.casing.label]
    return (found.withProperty namePropertyKey fixed).withSuggestion (rename fixed place)

def guardedInferred? (expression : Node) : Option (Option Finding) := do
  let name ← expression.inferredName?
  let _ ← context.settings.casing.fix? name
  return context.guardedFinding? descriptor expression.span [name, context.settings.casing.label]

def guardedElement? (element : TupleElement) : Option (Option Finding) :=
  if checksWritten context then element.name?.bind (guardedWritten? context) else none

def guardedArgument? (argument : Argument) : Option (Option Finding) :=
  match argument.nameColon? with
  | some label => if checksWritten context then label.name?.bind (guardedWritten? context) else none
  | none =>
      if checksInferred context then argument.expression?.bind (guardedInferred? context)
      else none

def guardedFindings (node : Node) : List (Option Finding) :=
  match node.as? .tupleType with
  | some tuple => (TupleType.elements tuple).filterMap (guardedElement? context)
  | none =>
      match node.as? .tupleExpression with
      | some tuple => tuple.node.arguments.filterMap (guardedArgument? context)
      | none => []

end Definitions

variable {context : Context}

theorem guardedWritten?_eq {token : Token}
    (placed : (Part.token token).Placed context.unit.tree) :
    guardedWritten? context token = (writtenFinding? context token).map some := by
  unfold guardedWritten? writtenFinding?
  rw [Option.map_map]
  refine congrArg (Option.map · _) (funext fun fixed => ?_)
  have place : context.guardedLocation? token.span = _ := Context.guardedLocation?_of_placed placed
  have found : context.guardedFinding? descriptor token.span _ = _ :=
    Context.guardedFinding?_of_placed placed descriptor [token.text, context.settings.casing.label]
  rw [place, found]
  rfl

theorem guardedInferred?_eq {expression : Node} (placed : expression.Placed context.unit.tree) :
    guardedInferred? context expression = (inferredFinding? context expression).map some := by
  unfold guardedInferred? inferredFinding?
  cases expression.inferredName? with
  | none => rfl
  | some name =>
      have found : context.guardedFinding? descriptor expression.span
          [name, context.settings.casing.label] = some (finding context name expression.span) :=
        Context.guardedFinding?_of_placed (.node placed) descriptor _
      simp only [Option.bind_eq_bind, Option.bind_some, found]
      cases context.settings.casing.fix? name with
      | none => rfl
      | some fixed => rfl

theorem guardedElement?_eq {tuple : Node} {element : TupleElement}
    (placed : tuple.Placed context.unit.tree) (inside : element.node ∈ tuple.children) :
    guardedElement? context element = (elementFinding? context element).map some := by
  unfold guardedElement? elementFinding?
  split
  · cases named : TupleElement.name? element with
    | none => rfl
    | some token =>
        have member := Node.mem_tokens_of_child inside (mem_tokens_of_name? named)
        exact guardedWritten?_eq (.token (placed.mem_tokens member))
  · rfl

theorem guardedArgument?_eq {tuple : Node} {argument : Argument}
    (placed : tuple.Placed context.unit.tree) (inside : argument.node ∈ tuple.children) :
    guardedArgument? context argument = (argumentFinding? context argument).map some := by
  have here := placed.child inside
  unfold guardedArgument? argumentFinding?
  cases labeled : argument.nameColon? with
  | some label =>
      dsimp only
      split
      · cases named : NameColon.name? label with
        | none => rfl
        | some token =>
            have member : token ∈ argument.node.tokens :=
              mem_tokens_of_labelName? (Option.bind_eq_some_iff.mpr ⟨label, labeled, named⟩)
            exact guardedWritten?_eq (.token (here.mem_tokens member))
      · rfl
  | none =>
      dsimp only
      split
      · cases first : argument.expression? with
        | none => rfl
        | some expression =>
            have member := (List.mem_filter.mp (List.mem_of_mem_head? first)).1
            exact guardedInferred?_eq (here.child member)
      · rfl

/-- At a node of the tree all findings about names are there. -/
theorem guardedFindings_eq {node : Node} (placed : node.Placed context.unit.tree) :
    guardedFindings context node = (findings context node).map some := by
  unfold guardedFindings findings
  cases isType : node.as? .tupleType with
  | some tuple =>
      rw [← Node.as?_node isType] at placed
      rw [List.map_filterMap]
      exact List.filterMap_congr fun element member =>
        guardedElement?_eq placed (Node.mem_children_of_childrenAs member)
  | none =>
      cases isLiteral : node.as? .tupleExpression with
      | none => rfl
      | some tuple =>
          rw [← Node.as?_node isLiteral] at placed
          rw [List.map_filterMap]
          exact List.filterMap_congr fun argument member =>
            guardedArgument?_eq placed (Node.mem_children_of_childrenAs member)

/-- The rule with its bounds watched. -/
def guarded : Checker :=
  .ofBuilt descriptor checker.kinds guardedFindings

end Casing

/-! ### Lists that can be removed -/

/-- The finding that a part of the unit can be removed. -/
def Context.guardedDeletion? (context : Context) (descriptor : Descriptor) (span : Span)
    (args : List String) (message : String) : Option Finding := do
  let found ← context.guardedFinding? descriptor span args
  let place ← context.guardedLocation? span
  return found.withSuggestion (.deletion message place)

theorem Context.guardedDeletion?_of_placed {context : Context} {node : Node}
    (placed : node.Placed context.unit.tree) (descriptor : Descriptor) (args : List String)
    (message : String) : context.guardedDeletion? descriptor node.span args message =
      some ((context.finding descriptor node.span args).withSuggestion
        (.deletion message (context.location node.span))) := by
  have place : context.guardedLocation? node.span = _ := guardedLocation?_of_placed (.node placed)
  have found : context.guardedFinding? descriptor node.span args = _ :=
    guardedFinding?_of_placed (.node placed) descriptor args
  unfold guardedDeletion?
  rw [found, place]
  rfl

namespace AnonymousMethodList

def guardedCheck (context : Context) (node : Node) (progress : Progress) :
    CheckResult × Progress :=
  match emptyList? node with
  | none => (.done, progress)
  | some list =>
      let (removable, signal) := isRemovable context node progress.signal
      let progress := { progress with signal }
      match removable with
      | none => (.failed .cancelled, progress)
      | some true => progress.pushBuilt
          [context.guardedDeletion? descriptor list.node.span [] "Remove the empty parameter list"]
      | some false => (.done, progress)

/-- At a node of the tree the finding is there, if there is to be one. -/
theorem guardedCheck_eq {context : Context} {node : Node}
    (placed : node.Placed context.unit.tree) (progress : Progress) :
    guardedCheck context node progress = check context node progress := by
  unfold guardedCheck check
  cases empty : emptyList? node with
  | none => rfl
  | some list =>
      obtain ⟨-, first, -⟩ := (emptyList?_eq_some_iff node list).mp empty
      have below := placed.child (Node.mem_children_of_childAs? first)
      dsimp only
      cases (isRemovable context node progress.signal).1 with
      | none => rfl
      | some removable =>
          cases removable with
          | false => rfl
          | true =>
              rw [Context.guardedDeletion?_of_placed below]
              rfl

/-- The rule with its bounds watched. -/
def guarded : Checker :=
  { checker with check := guardedCheck }

end AnonymousMethodList

namespace AttributeList

def guardedFinding? (context : Context) (attr : Attribute) : Option (Option Finding) := do
  let list ← attr.argumentList?
  if list.arguments.isEmpty then
    return context.guardedDeletion? descriptor list.node.span [attr.name?.getD ""]
      "Remove the empty argument list"
  else none

def guardedFindings (context : Context) (node : Node) : List (Option Finding) :=
  ((node.as? .attribute).bind (guardedFinding? context)).toList

/-- At a node of the tree the finding is there, if there is to be one. -/
theorem guardedFindings_eq {context : Context} {node : Node}
    (placed : node.Placed context.unit.tree) :
    guardedFindings context node = (findings context node).map some := by
  unfold guardedFindings findings guardedFinding? finding?
  cases known : node.as? .attribute with
  | none => rfl
  | some attr =>
      rw [← Node.as?_node known] at placed
      rw [Option.bind_some, Option.bind_some]
      cases first : Attribute.argumentList? attr with
      | none => rfl
      | some list =>
          have below := placed.child (Node.mem_children_of_childAs? first)
          simp only [Option.bind_eq_bind, Option.bind_some,
            Context.guardedDeletion?_of_placed below]
          split
          · rfl
          · rfl

/-- An attribute that is no part of the unit may stand inside of a character of its text. -/
example : guardedFindings
    ⟨.withoutSemantics "A.cs" ⟨.identifierName, [.token .identifier "Ö"]⟩, .default⟩
    ⟨⟨.attribute, [.node .attributeArgumentList []]⟩, 1, []⟩ = [none] := by cbv

/-- The rule with its bounds watched. -/
def guarded : Checker :=
  .ofBuilt descriptor checker.kinds guardedFindings

end AttributeList

end TreeLint
