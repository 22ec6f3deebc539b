import TreeLint.Proofs.Text.Positions
import TreeLint.Proofs.Tree.Placement
import TreeLint.Rule.Casing
import TreeLint.Tree.Snippet

/-!
# Names against the convention

What the elements of tuples in snippets have against the convention is told by their names, the
settings and the version of the language alone (`TreeLint.Casing.elementViolation?`,
`TreeLint.Casing.argumentViolation?`). The casing rule finds just that about an element, wherever it
stands (`TreeLint.Casing.elementFinding?_at`, `TreeLint.Casing.argumentFinding?_at`).
-/

namespace TreeLint

open Snippet

/-- A name of a tuple element against the convention: the text in front of what is reported, the
text that is reported, the name, and the correction if one is offered. -/
structure Violation where
  before : String
  about : String
  name : String
  correction : Option String
deriving DecidableEq

namespace Violation

open Text

/-- The bytes of the reported text. -/
def span (violation : Violation) : Span :=
  ⟨width violation.before.toList,
    width violation.before.toList + width violation.about.toList⟩

/-- Where the reported text is in a file. -/
def location (file : String) (violation : Violation) : Location :=
  let start := Position.behind violation.before.toList
  let stop := Position.behind (violation.before ++ violation.about).toList
  ⟨file, start.line, start.column, some stop.line, some stop.column,
    width violation.before.toList, width violation.about.toList, some violation.span⟩

/-- The finding about a name against a convention. -/
def finding (casing : Convention) (severity : Severity) (location : Location)
    (violation : Violation) : Finding where
  ruleId := "naming/tuple-element-casing"
  code := some "CL1001"
  severity
  message :=
    "Tuple element name '" ++ violation.name ++ "' should use " ++ casing.label ++ " casing"
  messageArgs := [violation.name, casing.label]
  location
  properties :=
    violation.correction.elim .empty fun fixed => .insert .empty "TupleElementName" fixed
  suggestions := violation.correction.toList.map fun fixed =>
    ⟨"Rename to '" ++ fixed ++ "'", fixed, location, .maybeIncorrect⟩
  category := some .naming

end Violation

namespace Casing

/-- The text of an element of a tuple type, from its type and its name. -/
def elementText (entry : String × String) : String :=
  if entry.2.isEmpty then entry.1 else entry.1 ++ " " ++ entry.2

/-- The text of an element of a tuple literal. -/
def argumentText : TupleArgument → String
  | .named name => name ++ ": 1"
  | .identifier name => name
  | .memberAccess receiver name => receiver ++ "." ++ name
  | .conditionalAccess receiver name => receiver ++ "?." ++ name
  | .literal text => text

/-- What an element of a tuple type behind a text has against the convention. -/
def elementViolation? (settings : Settings) (version : Version) (before : String)
    (entry : String × String) : Option Violation :=
  if version.supportsNamedTuples && !entry.2.isEmpty then
    (settings.casing.fix? entry.2).map fun fixed =>
      ⟨before ++ entry.1 ++ " ", entry.2, entry.2, some fixed⟩
  else none

/-- What an element of a tuple literal behind a text has against the convention. -/
def argumentViolation? (settings : Settings) (version : Version) (before : String)
    (argument : TupleArgument) : Option Violation :=
  match argument with
  | .named name =>
      if version.supportsNamedTuples then
        (settings.casing.fix? name).map fun fixed => ⟨before, name, name, some fixed⟩
      else none
  | .identifier name | .memberAccess _ name | .conditionalAccess _ name =>
      if version.supportsInferredNames && settings.includeInferred then
        (settings.casing.fix? name).map fun _ => ⟨before, argumentText argument, name, none⟩
      else none
  | .literal _ => none

/-! ### Texts -/

theorem formatMessage_eq (name label : String) : descriptor.formatMessage [name, label] =
    "Tuple element name '" ++ name ++ "' should use " ++ label ++ " casing" := by
  rw [← String.toList_inj, String.toList_append, String.toList_append, String.toList_append,
    String.toList_append, List.append_assoc, List.append_assoc, List.append_assoc]
  change (String.ofList (Text.fillChars [name, label] 0 _)).toList = _
  rw [String.toList_ofList]
  rfl

theorem chars_tupleElement (entry : String × String) :
    (tupleElement entry.1 entry.2).chars = (elementText entry).toList := by
  unfold tupleElement elementText
  split
  · change (entry.1.toList ++ []) ++ [] = _
    rw [List.append_nil, List.append_nil]
  · change (entry.1.toList ++ []) ++ ([' '] ++ (entry.2.toList ++ [])) = _
    rw [List.append_nil, List.append_nil, String.toList_append, String.toList_append,
      List.append_assoc]
    rfl

theorem chars_tupleArgument (argument : TupleArgument) :
    (tupleArgument argument).chars = (argumentText argument).toList := by
  cases argument with
  | named name =>
      change ((name.toList ++ []) ++ [':']) ++ ([' ', '1']) = (name ++ ": 1").toList
      rw [List.append_nil, String.toList_append, List.append_assoc]
      rfl
  | identifier name =>
      change (name.toList ++ []) ++ [] = _
      rw [List.append_nil, List.append_nil]
      rfl
  | memberAccess receiver name =>
      change ((receiver.toList ++ []) ++ (['.'] ++ ((name.toList ++ []) ++ []))) ++ [] =
        (receiver ++ "." ++ name).toList
      rw [List.append_nil, List.append_nil, List.append_nil, List.append_nil,
        String.toList_append, String.toList_append, List.append_assoc]
      rfl
  | conditionalAccess receiver name =>
      change ((receiver.toList ++ []) ++ (['?'] ++ ((['.'] ++ ((name.toList ++ []) ++ [])) ++
        []))) ++ [] = (receiver ++ "?." ++ name).toList
      rw [List.append_nil, List.append_nil, List.append_nil, List.append_nil, List.append_nil,
        String.toList_append, String.toList_append, List.append_assoc]
      rfl
  | literal text =>
      change (text.toList ++ []) ++ [] = _
      rw [List.append_nil, List.append_nil]
      rfl

/-! ### Findings -/

variable {context : Context} {severity : Severity}

theorem finding_eq (enabled : context.severityFor? descriptor = some severity)
    (before about name : String) :
    finding context name (Violation.span ⟨before, about, name, none⟩) =
      Violation.finding context.settings.casing severity
        (context.location (Violation.span ⟨before, about, name, none⟩))
        ⟨before, about, name, none⟩ := by
  have own : context.severity descriptor = severity := by
    rw [Context.severity, enabled, Option.getD_some]
  rw [finding, Context.finding, own, Finding.ofRule, formatMessage_eq]
  rfl

theorem writtenFinding?_at (enabled : context.severityFor? descriptor = some severity)
    {token : Token} {before : String} (start : token.start = Text.width before.toList) :
    writtenFinding? context token = ((context.settings.casing.fix? token.text).map fun fixed =>
      (⟨before, token.text, token.text, some fixed⟩ : Violation)).map fun violation =>
        violation.finding context.settings.casing severity (context.location violation.span) := by
  rw [Option.map_map]
  refine congrArg (Option.map · _) (funext fun fixed => ?_)
  have bytes : token.span = Violation.span ⟨before, token.text, token.text, none⟩ := by
    rw [Token.span, start]
    rfl
  rw [bytes, finding_eq enabled]
  rfl

theorem inferredFinding?_at (enabled : context.severityFor? descriptor = some severity)
    {expression : Node} {before about name : String} (named : expression.inferredName? = some name)
    (start : expression.start = Text.width before.toList)
    (spelled : expression.tree.chars = about.toList) :
    inferredFinding? context expression = ((context.settings.casing.fix? name).map fun _ =>
      (⟨before, about, name, none⟩ : Violation)).map fun violation =>
        violation.finding context.settings.casing severity (context.location violation.span) := by
  have bytes : expression.span = Violation.span ⟨before, about, name, none⟩ := by
    rw [Node.span, Tree.width, spelled, start]
    rfl
  rw [inferredFinding?, named, bytes]
  change (context.settings.casing.fix? name).bind (fun _ => some (finding context name _)) = _
  rw [finding_eq enabled]
  cases context.settings.casing.fix? name <;> rfl

theorem name?_of_unnamed {element : TupleElement} {entry : String × String}
    (same : element.node.tree.element = tupleElement entry.1 entry.2)
    (unnamed : entry.2.isEmpty = true) : element.name? = none := by
  have children := (Element.node.inj same).2
  rw [if_pos unnamed] at children
  rw [TupleElement.name?, Node.parts, children]
  rfl

theorem exists_name?_of_named {element : TupleElement} {entry : String × String}
    (same : element.node.tree.element = tupleElement entry.1 entry.2)
    (named : entry.2.isEmpty = false) :
    ∃ token, element.name? = some token ∧ token.text = entry.2 ∧
      token.start = element.node.start + Text.width (entry.1 ++ " ").toList := by
  have children := (Element.node.inj same).2
  rw [if_neg (by rw [named]; nofun)] at children
  rw [TupleElement.name?, Node.parts, children]
  refine ⟨_, rfl, rfl, ?_⟩
  -- In front of the name there are the type and a blank.
  have type : (predefinedType entry.1).width = Text.width entry.1.toList := by
    change Text.width (entry.1.toList ++ []) = _
    rw [List.append_nil]
  change element.node.start + (predefinedType entry.1).width + Text.width [' '] = _
  rw [type, String.toList_append, Text.width_append, Nat.add_assoc]
  rfl

theorem elementFinding?_at (enabled : context.severityFor? descriptor = some severity)
    {element : TupleElement} {entry : String × String} {before : String}
    (same : element.node.tree.element = tupleElement entry.1 entry.2)
    (start : element.node.start = Text.width before.toList) :
    elementFinding? context element =
      (elementViolation? context.settings context.unit.version before entry).map fun violation =>
        violation.finding context.settings.casing severity (context.location violation.span) := by
  rw [elementFinding?, elementViolation?, checksWritten]
  cases context.unit.version.supportsNamedTuples with
  | false => rfl
  | true =>
      cases named : entry.2.isEmpty with
      | true =>
          rw [name?_of_unnamed same named]
          rfl
      | false =>
          obtain ⟨token, first, text, behind⟩ := exists_name?_of_named same named
          have place : token.start = Text.width (before ++ entry.1 ++ " ").toList := by
            rw [behind, start, String.append_assoc, ← Text.width_append, ← String.toList_append]
          rw [first]
          change writtenFinding? context token = _
          rw [writtenFinding?_at enabled place, text]
          rfl

theorem exists_label_of_named {found : Argument} {name : String}
    (same : found.node.tree.element = tupleArgument (.named name)) :
    ∃ label token, found.nameColon? = some label ∧ label.name? = some token ∧
      token.text = name ∧ token.start = found.node.start := by
  have children := (Element.node.inj same).2
  rw [Argument.nameColon?, Node.childAs?, Node.children, Node.parts, children]
  exact ⟨_, _, rfl, rfl, rfl, rfl⟩

/-- An argument without a label has an expression that is all of its text. -/
theorem exists_expression_of_single {found : Argument} {argument : TupleArgument}
    (same : found.node.tree.element = tupleArgument argument) {kind : NodeKind}
    {children : List Element}
    (single : tupleArgument argument = .node .argument [.node kind children])
    (isExpression : kind.expressionForm?.isSome = true) (noLabel : kind ≠ .nameColon) :
    found.nameColon? = none ∧ ∃ expression, found.expression? = some expression ∧
      expression.tree = ⟨kind, children⟩ ∧ expression.start = found.node.start ∧
      expression.tree.chars = (argumentText argument).toList := by
  have elements := (Element.node.inj (same.trans single)).2
  have texts := chars_tupleArgument argument
  rw [single] at texts
  constructor
  · rw [Argument.nameColon?, Node.childAs?, Node.children, Node.parts, elements]
    exact List.findSome?_singleton.trans (Node.as?_of_other noLabel)
  · rw [Argument.expression?, Node.expressions, Node.children, Node.parts, elements]
    let above := Level.mk found.node.tree found.node.start 0 :: found.node.above
    refine ⟨⟨⟨kind, children⟩, found.node.start, above⟩, ?_, rfl, rfl, ?_⟩
    · rw [List.head?_filter]
      exact List.find?_singleton.trans (if_pos isExpression)
    · rw [← texts]
      exact (List.append_nil _).symm

/-- A name that is taken over is found at the expression, which stands where the argument does. -/
theorem argumentFinding?_of_taken (enabled : context.severityFor? descriptor = some severity)
    {found : Argument} {argument : TupleArgument} {before name : String}
    (same : found.node.tree.element = tupleArgument argument)
    (start : found.node.start = Text.width before.toList) {kind : NodeKind}
    {children : List Element}
    (single : tupleArgument argument = .node .argument [.node kind children])
    (isExpression : kind.expressionForm?.isSome = true) (noLabel : kind ≠ .nameColon)
    (taken : (Element.node kind children).inferredName? = some name) :
    argumentFinding? context found =
      (if context.unit.version.supportsInferredNames && context.settings.includeInferred then
        (context.settings.casing.fix? name).map fun _ =>
          (⟨before, argumentText argument, name, none⟩ : Violation)
      else none).map fun violation =>
        violation.finding context.settings.casing severity (context.location violation.span) := by
  obtain ⟨unlabelled, expression, first, tree, behind, spelled⟩ :=
    exists_expression_of_single same single isExpression noLabel
  have named : expression.inferredName? = some name := by
    rw [Node.inferredName?, tree]
    exact taken
  rw [argumentFinding?, unlabelled, checksInferred, first]
  dsimp only
  split
  · exact inferredFinding?_at enabled named (behind.trans start) spelled
  · rfl

theorem argumentFinding?_at (enabled : context.severityFor? descriptor = some severity)
    {found : Argument} {argument : TupleArgument} {before : String}
    (same : found.node.tree.element = tupleArgument argument)
    (start : found.node.start = Text.width before.toList) :
    argumentFinding? context found =
      (argumentViolation? context.settings context.unit.version before argument).map
        fun violation =>
          violation.finding context.settings.casing severity (context.location violation.span) := by
  cases argument with
  | named name =>
      obtain ⟨label, token, labelled, first, text, behind⟩ := exists_label_of_named same
      have written := writtenFinding?_at enabled (behind.trans start)
      rw [text] at written
      rw [argumentFinding?, labelled, argumentViolation?, checksWritten]
      dsimp only
      rw [first]
      split
      · exact written
      · rfl
  | identifier name => exact argumentFinding?_of_taken enabled same start rfl rfl nofun rfl
  | memberAccess receiver name =>
      exact argumentFinding?_of_taken enabled same start rfl rfl nofun rfl
  | conditionalAccess receiver name =>
      exact argumentFinding?_of_taken enabled same start rfl rfl nofun rfl
  | literal text =>
      obtain ⟨unlabelled, expression, first, tree, -, -⟩ :=
        exists_expression_of_single same rfl rfl nofun
      have nameless : expression.inferredName? = none := by
        rw [Node.inferredName?, tree]
        rfl
      rw [argumentFinding?, unlabelled]
      dsimp only
      rw [first]
      change (if checksInferred context then inferredFinding? context expression else none) = none
      rw [inferredFinding?, nameless]
      exact ite_self none

end Casing

end TreeLint
