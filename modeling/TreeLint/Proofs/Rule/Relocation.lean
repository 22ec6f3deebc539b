import TreeLint.Proofs.Analysis.Contents
import TreeLint.Proofs.Tree.Coverage
import TreeLint.Proofs.Tree.Likeness

/-!
# Findings in other places

A finding can be moved to another place together with its suggestions
(`TreeLint.Finding.relocated`). When two trees are alike and the contexts agree in what the rules
read of them, the built-in rules find the same in both, up to the places
(`TreeLint.Likeness.Agreement.walk`).
-/

namespace TreeLint

/-- A suggestion in another place. -/
def Suggestion.relocated (place : Location → Location) (suggestion : Suggestion) : Suggestion :=
  { suggestion with location := place suggestion.location }

namespace Finding

/-- A finding in another place, and its suggestions with it. -/
def relocated (place : Location → Location) (finding : Finding) : Finding :=
  { finding with
    location := place finding.location
    suggestions := finding.suggestions.map (·.relocated place) }

theorem relocated_id (finding : Finding) : finding.relocated id = finding := by
  have suggestions : finding.suggestions.map (·.relocated id) = finding.suggestions :=
    List.map_id finding.suggestions
  rw [relocated, suggestions]
  rfl

theorem relocated_withProperty (place : Location → Location) (finding : Finding)
    (key value : String) : (finding.withProperty key value).relocated place =
      (finding.relocated place).withProperty key value := rfl

theorem relocated_withSuggestion (place : Location → Location) (finding : Finding)
    (suggestion : Suggestion) : (finding.withSuggestion suggestion).relocated place =
      (finding.relocated place).withSuggestion (suggestion.relocated place) := by
  simp only [relocated, withSuggestion, List.map_append, List.map_cons, List.map_nil]

/-- Two findings are the same up to their places. -/
def Corresponds (place placeToo : Location → Location) (first second : Finding) : Prop :=
  second.relocated placeToo = first.relocated place

end Finding

namespace Likeness

/-- The empty lists of alike anonymous methods are alike. -/
theorem emptyList? {alike : Likeness} {one other : Node} (like : alike.nodes one other) :
    Option.Rel alike.views (AnonymousMethodList.emptyList? one)
      (AnonymousMethodList.emptyList? other) := by
  refine rel_bind (fun method methodToo (methods : alike.views method methodToo) => ?_)
    (as? like .anonymousMethodExpression)
  refine rel_bind (fun list listToo (lists : alike.views list listToo) => ?_)
    (childAs? methods .parameterList)
  have empty : (ParameterList.parameters listToo).isEmpty =
      (ParameterList.parameters list).isEmpty :=
    isEmpty_eq_of_rel (childrenAs lists .parameter)
  rw [empty]
  cases (ParameterList.parameters list).isEmpty with
  | true => exact .some lists
  | false => exact .none

/-- Two contexts agree in what the built-in rules read of them at related parts, and locate these in
places that are the same when they are told in other terms. -/
structure Agreement (alike : Likeness) (first second : Context)
    (place placeToo : Location → Location) : Prop where
  settings : second.settings = first.settings
  version : second.unit.version = first.unit.version
  places : ∀ one other : Part, alike.rel one other →
    placeToo (second.location other.span) = place (first.location one.span)
  removable : ∀ one other : Node, alike.nodes one other →
    AnonymousMethodList.removable second other = AnonymousMethodList.removable first one

namespace Agreement

open Finding

variable {alike : Likeness} {first second : Context} {place placeToo : Location → Location}
  (agree : alike.Agreement first second place placeToo)

include agree

theorem severityFor? (descriptor : Descriptor) :
    second.severityFor? descriptor = first.severityFor? descriptor := by
  rw [Context.severityFor?, Context.severityFor?, agree.settings]

theorem finding (descriptor : Descriptor) (args : List String) {one other : Part}
    (like : alike.rel one other) :
    Corresponds place placeToo (first.finding descriptor one.span args)
      (second.finding descriptor other.span args) := by
  rw [Context.finding, Context.finding, Context.severity, Context.severity,
    agree.severityFor? descriptor]
  exact congrArg (Finding.ofRule descriptor _ · args) (agree.places one other like)

/-! ### Names -/

theorem writtenFinding? {one other : Token} (like : alike.tokens one other) :
    Option.Rel (Corresponds place placeToo) (Casing.writtenFinding? first one)
      (Casing.writtenFinding? second other) := by
  rw [Casing.writtenFinding?, Casing.writtenFinding?, Likeness.text_eq like, agree.settings]
  cases first.settings.casing.fix? one.text with
  | none => exact .none
  | some fixed =>
      have found := agree.finding Casing.descriptor
        [one.text, first.settings.casing.label] like
      have renamed : (Casing.rename fixed (second.location other.span)).relocated placeToo =
          (Casing.rename fixed (first.location one.span)).relocated place :=
        congrArg (Casing.rename fixed) (agree.places _ _ like)
      refine .some ?_
      rw [Casing.finding, Casing.finding, agree.settings]
      unfold Corresponds at found ⊢
      rw [relocated_withSuggestion, relocated_withProperty, relocated_withSuggestion,
        relocated_withProperty]
      exact congrArg₂ withSuggestion (congrArg (withProperty · _ fixed) found) renamed

theorem inferredFinding? {one other : Node} (like : alike.nodes one other) :
    Option.Rel (Corresponds place placeToo) (Casing.inferredFinding? first one)
      (Casing.inferredFinding? second other) := by
  rw [Casing.inferredFinding?, Casing.inferredFinding?, Likeness.inferredName?_eq like,
    agree.settings]
  cases one.inferredName? with
  | none => exact .none
  | some name =>
      have found := agree.finding Casing.descriptor [name, first.settings.casing.label] like
      simp only [Option.bind_eq_bind, Option.bind_some]
      cases first.settings.casing.fix? name with
      | none => exact .none
      | some fixed =>
          rw [Option.bind_some, Option.bind_some, Casing.finding, Casing.finding, agree.settings]
          exact .some found

theorem checksWritten : Casing.checksWritten second = Casing.checksWritten first :=
  congrArg Version.supportsNamedTuples agree.version

theorem checksInferred : Casing.checksInferred second = Casing.checksInferred first := by
  rw [Casing.checksInferred, agree.version, agree.settings]
  rfl

theorem elementFinding? {one other : TupleElement} (like : alike.views one other) :
    Option.Rel (Corresponds place placeToo) (Casing.elementFinding? first one)
      (Casing.elementFinding? second other) := by
  rw [Casing.elementFinding?, Casing.elementFinding?, agree.checksWritten]
  split
  · exact rel_bind (fun _ _ like => agree.writtenFinding? like) (name? like)
  · exact .none

theorem argumentFinding? {one other : Argument} (like : alike.views one other) :
    Option.Rel (Corresponds place placeToo) (Casing.argumentFinding? first one)
      (Casing.argumentFinding? second other) := by
  have labels : Option.Rel alike.views one.nameColon? other.nameColon? := childAs? like .nameColon
  rw [Casing.argumentFinding?, Casing.argumentFinding?, agree.checksWritten, agree.checksInferred]
  generalize one.nameColon? = label at labels ⊢
  generalize other.nameColon? = labelToo at labels ⊢
  cases labels with
  | some labels =>
      dsimp only
      split
      · exact rel_bind (fun _ _ like => agree.writtenFinding? like) (labelName? labels)
      · exact .none
  | none =>
      dsimp only
      split
      · exact rel_bind (fun _ _ like => agree.inferredFinding? like) (expression? like)
      · exact .none

/-! ### Nodes -/

variable {one other : Node}

theorem casing (like : alike.nodes one other) : List.Forall₂ (Corresponds place placeToo)
    (Casing.findings first one) (Casing.findings second other) := by
  have types := as? like .tupleType
  have literals := as? like .tupleExpression
  unfold Casing.findings
  generalize one.as? .tupleType = type at types ⊢
  generalize other.as? .tupleType = typeToo at types ⊢
  cases types with
  | some type =>
      exact List.rel_filterMap (fun element elementToo (like : alike.views element elementToo) =>
        agree.elementFinding? like) (childrenAs type .tupleElement)
  | none =>
      generalize one.as? .tupleExpression = literal at literals ⊢
      generalize other.as? .tupleExpression = literalToo at literals ⊢
      cases literals with
      | some literal =>
          exact List.rel_filterMap (fun argument argumentToo
            (like : alike.views argument argumentToo) => agree.argumentFinding? like)
            (childrenAs literal .argument)
      | none => exact .nil

theorem deletion (descriptor : Descriptor) (args : List String) (message : String)
    (like : alike.nodes one other) : Corresponds place placeToo
      ((first.finding descriptor one.span args).withSuggestion
        (.deletion message (first.location one.span)))
      ((second.finding descriptor other.span args).withSuggestion
        (.deletion message (second.location other.span))) := by
  have found := agree.finding descriptor args like
  have deleted : (Suggestion.deletion message (second.location other.span)).relocated placeToo =
      (Suggestion.deletion message (first.location one.span)).relocated place :=
    congrArg (Suggestion.deletion message) (agree.places _ _ like)
  unfold Corresponds at found ⊢
  rw [relocated_withSuggestion, relocated_withSuggestion]
  exact congrArg₂ withSuggestion found deleted

theorem anonymousMethodList (like : alike.nodes one other) :
    Option.Rel (Corresponds place placeToo) (AnonymousMethodList.finding? first one)
      (AnonymousMethodList.finding? second other) := by
  refine rel_bind (fun list listToo lists => ?_) (Likeness.emptyList? like)
  rw [agree.removable one other like]
  split
  · exact .some (agree.deletion _ _ _ lists)
  · exact .none

theorem attributeList (like : alike.nodes one other) : List.Forall₂ (Corresponds place placeToo)
    (AttributeList.findings first one) (AttributeList.findings second other) := by
  refine rel_toList (rel_bind (fun attr attrToo (like : alike.views attr attrToo) => ?_)
    (as? like .attribute))
  refine rel_bind (fun list listToo (lists : alike.views list listToo) => ?_)
    (childAs? like .attributeArgumentList)
  have empty : (AttributeArgumentList.arguments listToo).isEmpty =
      (AttributeArgumentList.arguments list).isEmpty :=
    isEmpty_eq_of_rel (childrenAs lists .attributeArgument)
  rw [empty, AttributeList.finding, AttributeList.finding, attributeName?_eq like]
  split
  · exact .some (agree.deletion _ _ _ lists)
  · exact .none

theorem reported (rule : ReportingRule)
    (found : List.Forall₂ (Corresponds place placeToo) (rule.findings first one)
      (rule.findings second other)) :
    List.Forall₂ (Corresponds place placeToo) (rule.reported first one)
      (rule.reported second other) := by
  rw [ReportingRule.reported, ReportingRule.reported, agree.severityFor?]
  split
  · exact .nil
  · exact found

/-- The built-in rules find the same about alike nodes, up to the places. -/
theorem findings (like : alike.nodes one other) : List.Forall₂ (Corresponds place placeToo)
    (Builtin.findings first one) (Builtin.findings second other) := by
  rw [Builtin.findings, Builtin.findings, nodeKind_eq like]
  cases chosen : Builtin.ruleFor? one.kind with
  | none => exact .nil
  | some rule =>
      refine agree.reported rule ?_
      unfold Builtin.ruleFor? at chosen
      split at chosen
      · cases chosen
        exact agree.casing like
      · cases chosen
        exact agree.casing like
      · cases chosen
        exact rel_toList (agree.anonymousMethodList like)
      · cases chosen
        exact agree.attributeList like
      · cases chosen

/-- The built-in rules find the same about the nodes of alike walks, up to the places. -/
theorem walk {nodes others : List Node} (walks : List.Forall₂ alike.nodes nodes others) :
    (others.flatMap (Builtin.findings second)).map (·.relocated placeToo) =
      (nodes.flatMap (Builtin.findings first)).map (·.relocated place) := by
  have found := forall₂_flatMap walks fun one _ other like => agree.findings like
  rw [← List.forall₂_eq_eq_eq, List.forall₂_map_left_iff, List.forall₂_map_right_iff]
  exact found.flip

end Agreement

end Likeness

end TreeLint
