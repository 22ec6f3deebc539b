import TreeLint.Proofs.Analysis.SoleNode
import TreeLint.Proofs.Correspondence
import TreeLint.Proofs.Finding.Order
import TreeLint.Proofs.Rule.Failures
import TreeLint.Proofs.Rule.Violations
import TreeLint.Proofs.Tree.Separated
import TreeLint.Proofs.Tree.Statements

/-!
# What is found in tuples of snippets

A snippet with a tuple type or a tuple literal has one finding for each element that has something
against the convention, in the order of the elements, and no other ones
(`TreeLint.Casing.tuples_found`). The places of the findings are told by the texts of the elements
before them.
-/

namespace TreeLint

open Snippet

namespace Casing

/-- The text up to an item of a list behind a text, from the texts of the items before. -/
def frontText (front : String) (texts : List String) : String :=
  front ++ "(" ++ String.join (texts.map (· ++ ", "))

/-- What the items of a list have against the convention, in their order. -/
def violations {α : Type} (front : String) (text : α → String)
    (violation? : String → α → Option Violation) (items : List α) : List Violation :=
  (inTurn items).filterMap fun entry =>
    violation? (frontText front (entry.1.map text)) entry.2

/-- The outcome of a pass that is not stopped has one finding for each violation, in this order, and
nothing else. The reported texts are in the text of the unit, and each of them begins behind the
beginnings of those before. -/
structure Finds (settings : Settings) (severity : Severity) (unit : AnalysisUnit)
    (violations : List Violation) : Prop where
  outcome : ((Engine.builtin settings).analyze unit .quiet).1 =
    { file := unit.path
      findings := violations.map fun violation =>
        violation.finding settings.casing severity (violation.location unit.path)
      failures := []
      cancelled := false }
  places : ∀ violation ∈ violations, ∃ after,
    unit.tree.text = violation.before ++ violation.about ++ after
  ascending : ((Engine.builtin settings).analyze unit .quiet).1.findings.Pairwise
    fun former latter => former.location.offset < latter.location.offset

end Casing

/-- What a violation is about is within a text that stands behind another one. -/
def Violation.Within (violation : Violation) (before text : String) : Prop :=
  ∃ inner rest, violation.before = before ++ inner ∧ text = inner ++ violation.about ++ rest

namespace Casing

theorem within_of_element {settings : Settings} {version : Version} {before : String}
    {entry : String × String} {violation : Violation}
    (found : elementViolation? settings version before entry = some violation) :
    violation.Within before (elementText entry) := by
  unfold elementViolation? at found
  split at found
  · next checked =>
      obtain ⟨fixed, -, rfl⟩ := Option.map_eq_some_iff.mp found
      have named : ¬entry.2.isEmpty = true := by
        rw [Bool.and_eq_true, Bool.not_eq_true'] at checked
        rw [checked.2]
        nofun
      refine ⟨entry.1 ++ " ", "", String.append_assoc, ?_⟩
      rw [elementText, if_neg named, String.append_empty]
  · cases found

theorem within_of_argument {settings : Settings} {version : Version} {before : String}
    {argument : TupleArgument} {violation : Violation}
    (found : argumentViolation? settings version before argument = some violation) :
    violation.Within before (argumentText argument) := by
  have taken (name : String) (gate : Bool)
      (found : (if gate then (settings.casing.fix? name).map fun _ =>
        (⟨before, argumentText argument, name, none⟩ : Violation) else none) = some violation) :
      violation.Within before (argumentText argument) := by
    split at found
    · obtain ⟨fixed, -, rfl⟩ := Option.map_eq_some_iff.mp found
      refine ⟨"", "", String.append_empty.symm, ?_⟩
      rw [String.empty_append, String.append_empty]
    · cases found
  cases argument with
  | named name =>
      rw [argumentViolation?] at found
      split at found
      · obtain ⟨fixed, -, rfl⟩ := Option.map_eq_some_iff.mp found
        refine ⟨"", ": 1", String.append_empty.symm, ?_⟩
        rw [String.empty_append]
        rfl
      · cases found
  | identifier name => exact taken name _ found
  | memberAccess receiver name => exact taken name _ found
  | conditionalAccess receiver name => exact taken name _ found
  | literal text => cases found

/-! ### Lists of items -/

/-- How the items of a list are written, what they have against the convention, and that just this
is found. -/
structure ItemForm (α : Type) (context : Context) (severity : Severity) where
  kind : NodeKind
  encode : α → Element
  text : α → String
  violation? : String → α → Option Violation
  finding? : View kind → Option Finding
  isNode : ∀ item, (encode item).kind = .node kind
  spells : ∀ item, (encode item).chars = (text item).toList
  unruled : ∀ item, (encode item).nodeKinds.countP Builtin.isRuled = 0
  within : ∀ before item violation, violation? before item = some violation →
    violation.Within before (text item)
  found : ∀ (view : View kind) item before, view.node.tree.element = encode item →
    view.node.start = Text.width before.toList →
    finding? view = (violation? before item).map fun violation =>
      violation.finding context.settings.casing severity (context.location violation.span)

namespace ItemForm

variable {α : Type} {context : Context} {severity : Severity}

/-- The text in front of an item is that of the elements before it. -/
theorem toList_frontText (form : ItemForm α context severity) (front : String) (items : List α) :
    (frontText front (items.map form.text)).toList =
      front.toList ++ '(' :: lead (items.map form.encode) := by
  have joined : (String.join ((items.map form.text).map (· ++ ", "))).toList =
      lead (items.map form.encode) := by
    rw [String.toList_join, List.map_map, List.flatMap_map, lead, List.flatMap_map]
    refine congrArg (List.flatMap · items) (funext fun item => ?_)
    rw [form.spells]
    exact String.toList_append
  rw [frontText, String.toList_append, String.toList_append, joined, List.append_assoc]
  rfl

/-- The text that is reported stands in the text of the list. -/
theorem exists_text (form : ItemForm α context severity) {front : String} {items : List α}
    {rest : List Char} {tree : Tree}
    (whole : tree.chars = front.toList ++
      Element.charsOfList (parenthesized (items.map form.encode)) ++ rest)
    {violation : Violation}
    (member : violation ∈ violations front form.text form.violation? items) :
    ∃ after, tree.text = violation.before ++ violation.about ++ after := by
  obtain ⟨⟨before, item⟩, listed, reported⟩ := List.mem_filterMap.mp member
  obtain ⟨back, rfl⟩ := mem_inTurn_iff.mp listed
  obtain ⟨inner, more, behind, spelled⟩ := form.within _ _ _ reported
  obtain ⟨after, inside⟩ := exists_chars_parenthesized (before.map form.encode) (form.encode item)
    (back.map form.encode)
  rw [List.map_append, List.map_cons, inside, form.spells, spelled] at whole
  refine ⟨String.ofList (more.toList ++ after ++ rest), ?_⟩
  have chars : tree.text.toList = tree.chars := String.toList_ofList
  rw [← String.toList_inj, chars, whole, behind, String.toList_append, String.toList_append,
    String.toList_append, String.toList_append, String.toList_append, String.toList_ofList,
    form.toList_frontText]
  simp only [List.append_assoc, List.cons_append]

/-- What is reported about an item begins behind what is reported about the items before. -/
theorem pairwise_violations (form : ItemForm α context severity) (front : String)
    (items : List α) :
    (violations front form.text form.violation? items).Pairwise fun former latter =>
      Text.width former.before.toList < Text.width latter.before.toList := by
  refine List.pairwise_filterMap.mpr ((pairwise_inTurn items).imp ?_)
  rintro ⟨before, item⟩ ⟨_, other⟩ ⟨between, rfl⟩ former here latter there
  obtain ⟨inner, more, behind, spelled⟩ := form.within _ _ _ here
  obtain ⟨innerToo, moreToo, behindToo, -⟩ := form.within _ _ _ there
  have first : lead ((before ++ item :: between).map form.encode) =
      lead (before.map form.encode) ++ ((form.text item).toList ++ [',', ' '] ++
        lead (between.map form.encode)) := by
    rw [List.map_append, List.map_cons, ← form.spells, ← lead_cons]
    exact List.flatMap_append
  have separator : Text.width [',', ' '] = 2 := rfl
  rw [behind, behindToo, String.toList_append, String.toList_append, form.toList_frontText,
    form.toList_frontText, first, spelled, String.toList_append, String.toList_append]
  simp only [Text.width_append, Text.width_cons, separator]
  omega

/-- The findings about the items of a list are those about their violations. -/
theorem findings_eq (form : ItemForm α context severity) {node : Node} {front : String}
    {items : List α} (listed : node.tree.children = parenthesized (items.map form.encode))
    (start : node.start = Text.width front.toList) :
    (node.childrenAs form.kind).filterMap form.finding? =
      (violations front form.text form.violation? items).map fun violation =>
        violation.finding context.settings.casing severity (context.location violation.span) := by
  have nodes : ∀ element ∈ items.map form.encode, element.kind = .node form.kind := by
    intro element member
    obtain ⟨item, -, rfl⟩ := List.mem_map.mp member
    exact form.isNode item
  have places := places_parenthesized node nodes listed
  rw [inTurn_map, List.map_map] at places
  rw [violations, List.map_filterMap]
  refine filterMap_eq_of_rel (forall₂_of_map_eq places) fun view entry same => ?_
  obtain ⟨element, behind⟩ := Prod.mk.inj same
  refine form.found view entry.2 _ element ?_
  rw [behind, form.toList_frontText, start, Text.width_append, Text.width_cons, Nat.add_assoc]
  rfl

/-- Of a tuple and the nodes below it, it is the only one that a rule is for. -/
theorem countP_tuple (form : ItemForm α context severity) {kind : NodeKind}
    (ruled : Builtin.isRuled kind = true) (items : List α) :
    (Element.node kind (parenthesized (items.map form.encode))).nodeKinds.countP
      Builtin.isRuled = 1 := by
  have below : (Element.nodeKindsOfList (parenthesized (items.map form.encode))).countP
      Builtin.isRuled = 0 := by
    refine countP_parenthesized fun element member => ?_
    obtain ⟨item, -, rfl⟩ := List.mem_map.mp member
    exact form.unruled item
  rw [Element.nodeKinds, List.countP_cons_of_pos ruled, below]

end ItemForm

/-- The findings about violations in the text of a unit are where this text says. -/
theorem location_of_text (context : Context) {violation : Violation} {after : String}
    (text : context.unit.tree.text = violation.before ++ violation.about ++ after) :
    context.location violation.span = violation.location context.unit.path := by
  have split : context.unit.tree.chars =
      violation.before.toList ++ violation.about.toList ++ after.toList := by
    have chars : context.unit.tree.text.toList = context.unit.tree.chars := String.toList_ofList
    rw [← chars, text, String.toList_append, String.toList_append]
  rw [Violation.span, context.location_of_covers split, ← String.toList_append]
  rfl

/-- A tree with a list of items that the casing rule is for, and no other node that a rule is for,
has the findings about the violations of these. -/
theorem ItemForm.finds {α : Type} {settings : Settings} {unit : AnalysisUnit} {severity : Severity}
    (form : ItemForm α ⟨unit, settings⟩ severity)
    (enabled : settings.severityFor? descriptor = some severity) {tuple : Node} {front : String}
    {items : List α} {rest : List Char}
    (sole : unit.tree.root.descendants.filter (Builtin.isRuled ·.kind) = [tuple])
    (isTuple : tuple.kind = .tupleType ∨ tuple.kind = .tupleExpression)
    (about : Casing.findings ⟨unit, settings⟩ tuple =
      (tuple.childrenAs form.kind).filterMap form.finding?)
    (listed : tuple.tree.children = parenthesized (items.map form.encode))
    (start : tuple.start = Text.width front.toList)
    (whole : unit.tree.chars = front.toList ++
      Element.charsOfList (parenthesized (items.map form.encode)) ++ rest) :
    Finds settings severity unit (violations front form.text form.violation? items) := by
  have noMethod : tuple.kind ≠ .anonymousMethodExpression := by
    rcases isTuple with same | same <;> rw [same] <;> nofun
  have chosen : Builtin.ruleFor? tuple.kind = some rule := by
    rcases isTuple with same | same <;> rw [same] <;> rfl
  have on : settings.severityFor? descriptor ≠ none := by
    rw [enabled]
    nofun
  have places : ∀ violation ∈ violations front form.text form.violation? items,
      ∃ after, unit.tree.text = violation.before ++ violation.about ++ after :=
    fun violation => form.exists_text whole
  have reported : Builtin.findings ⟨unit, settings⟩ tuple =
      (violations front form.text form.violation? items).map fun violation =>
        violation.finding settings.casing severity (violation.location unit.path) := by
    rw [Builtin.findings_of_rule rfl chosen]
    refine (if_neg on).trans ((about.trans (form.findings_eq listed start)).trans ?_)
    refine List.map_congr_left fun violation member => ?_
    obtain ⟨after, text⟩ := places violation member
    rw [location_of_text ⟨unit, settings⟩ text]
  have ascending : (Builtin.findings ⟨unit, settings⟩ tuple).Pairwise
      fun former latter => former.location.offset < latter.location.offset := by
    rw [reported, List.pairwise_map]
    exact form.pairwise_violations front items
  obtain ⟨found, finished⟩ := Engine.analyze_soleNode settings sole noMethod
  rw [Finding.sorted_eq_self (ascending.imp fun before =>
    (Finding.precedes_iff _ _).mpr (.inl before))] at found
  refine ⟨?_, places, found ▸ ascending⟩
  -- An outcome is made of what has been found of it.
  let outcome := ((Engine.builtin settings).analyze unit .quiet).1
  calc outcome
      = ⟨unit.path, outcome.findings, outcome.failures, outcome.cancelled⟩ := rfl
    _ = _ := by rw [found, reported, Engine.failures_builtin, finished]

/-! ### Tuples -/

section Forms

variable {context : Context} {severity : Severity}

/-- How the elements of tuple types are written and checked. -/
def elementForm (enabled : context.severityFor? descriptor = some severity) :
    ItemForm (String × String) context severity where
  kind := .tupleElement
  encode := fun entry => tupleElement entry.1 entry.2
  text := elementText
  violation? := elementViolation? context.settings context.unit.version
  finding? := elementFinding? context
  isNode := fun _ => rfl
  spells := chars_tupleElement
  unruled := by
    intro entry
    unfold tupleElement
    cases entry.2.isEmpty <;> rfl
  within := fun _ _ _ => within_of_element
  found := fun _ _ _ => elementFinding?_at enabled

/-- How the elements of tuple literals are written and checked. -/
def argumentForm (enabled : context.severityFor? descriptor = some severity) :
    ItemForm TupleArgument context severity where
  kind := .argument
  encode := tupleArgument
  text := argumentText
  violation? := argumentViolation? context.settings context.unit.version
  finding? := argumentFinding? context
  isNode := fun _ => rfl
  spells := chars_tupleArgument
  unruled := by
    intro argument
    cases argument <;> rfl
  within := fun _ _ _ => within_of_argument
  found := fun _ _ _ => argumentFinding?_at enabled

end Forms

variable {settings : Settings} {severity : Severity} (path : String) (model : SemanticModel)
  (version : Version)

theorem finds_tupleType (enabled : settings.severityFor? descriptor = some severity)
    (elements : List (String × String)) :
    Finds settings severity ⟨path, tupleTypeDeclaration elements, model, version⟩
      (violations "" elementText (elementViolation? settings version) elements) := by
  let unit : AnalysisUnit := ⟨path, tupleTypeDeclaration elements, model, version⟩
  let form : ItemForm (String × String) ⟨unit, settings⟩ severity := elementForm enabled
  obtain ⟨tuple, placed, tupleTree, start⟩ := exists_part [] .tupleType
    (parenthesized (elements.map form.encode))
    [blank, .node .variableDeclarator [identifier "value"]]
  have isTuple : tuple.kind = .tupleType := congrArg Tree.kind tupleTree
  have once : unit.tree.element.nodeKinds.countP Builtin.isRuled = 1 := by
    change (declaration _).element.nodeKinds.countP _ = 1
    rw [nodeKinds_declaration]
    change (NodeKind.compilationUnit :: .localDeclarationStatement ::
      ((Element.node .tupleType (parenthesized (elements.map form.encode))).nodeKinds ++
        [NodeKind.variableDeclarator])).countP _ = 1
    rw [List.countP_cons, List.countP_cons, List.countP_append, form.countP_tuple rfl]
    rfl
  have sole := unit.tree.root.filter_descendants_eq_singleton Builtin.isRuled
    placed.mem_descendants (by rw [isTuple]; rfl) once
  have about : findings ⟨unit, settings⟩ tuple =
      (tuple.childrenAs form.kind).filterMap form.finding? := by
    rw [findings, Node.as?_of_kind isTuple]
    rfl
  have whole : unit.tree.chars = "".toList ++ Element.charsOfList (parenthesized
      (elements.map form.encode)) ++ " value;".toList := by
    change (declaration _).chars = _
    rw [chars_declaration]
    change (_ ++ " value".toList) ++ [';'] = _
    rw [List.append_assoc]
    rfl
  exact form.finds enabled sole (.inl isTuple) about (congrArg Tree.children tupleTree) start whole

theorem finds_tupleExpression (enabled : settings.severityFor? descriptor = some severity)
    (arguments : List TupleArgument) :
    Finds settings severity ⟨path, tupleLiteral arguments, model, version⟩
      (violations "var t = " argumentText (argumentViolation? settings version) arguments) := by
  let unit : AnalysisUnit := ⟨path, tupleLiteral arguments, model, version⟩
  let form : ItemForm TupleArgument ⟨unit, settings⟩ severity := argumentForm enabled
  obtain ⟨tuple, placed, tupleTree, start⟩ :=
    exists_value "t" .tupleExpression (parenthesized (arguments.map form.encode))
  have isTuple : tuple.kind = .tupleExpression := congrArg Tree.kind tupleTree
  have once : unit.tree.element.nodeKinds.countP Builtin.isRuled = 1 := by
    change (assignment "t" _).element.nodeKinds.countP _ = 1
    rw [nodeKinds_assignment, List.countP_append]
    exact congrArg (0 + ·) (form.countP_tuple rfl arguments)
  have sole := unit.tree.root.filter_descendants_eq_singleton Builtin.isRuled
    placed.mem_descendants (by rw [isTuple]; rfl) once
  have about : findings ⟨unit, settings⟩ tuple =
      (tuple.childrenAs form.kind).filterMap form.finding? := by
    have noType : tuple.kind ≠ .tupleType := by
      rw [isTuple]
      nofun
    rw [findings, Node.as?_of_other noType, Node.as?_of_kind isTuple]
    rfl
  have whole : unit.tree.chars = "var t = ".toList ++ Element.charsOfList (parenthesized
      (arguments.map form.encode)) ++ ";".toList :=
    chars_assignment "t" _
  exact form.finds enabled sole (.inr isTuple) about (congrArg Tree.children tupleTree) start whole

/-- **What is found in tuples.** In a snippet with a tuple there is one finding for each element
that has something against the convention, in the order of the elements and just where its text
stands, and nothing else, whatever the host is like. A name that is declared is reported where it
stands and with its correction, if the version has names for elements; a name that is taken over is
reported at the expression and without a correction, if the version takes names over and the
settings ask for it. -/
theorem tuples_found (enabled : settings.severityFor? descriptor = some severity) :
    (∀ elements, Finds settings severity
      ⟨path, tupleTypeDeclaration elements, model, version⟩
      (violations "" elementText (elementViolation? settings version) elements)) ∧
    ∀ arguments, Finds settings severity ⟨path, tupleLiteral arguments, model, version⟩
      (violations "var t = " argumentText (argumentViolation? settings version) arguments) :=
  ⟨finds_tupleType path model version enabled, finds_tupleExpression path model version enabled⟩

theorem tuples_found_mixed : (Settings.naming .camelCase true).severityFor? descriptor =
      some .warning ∧
    Finds (.naming .camelCase true) .warning
      ⟨"Literal.cs", tupleLiteral [.named "Count", .literal "1", .memberAccess "point" "Y"],
        BoundSymbols.empty.model, .latest⟩
      [⟨"var t = (", "Count", "Count", some "count"⟩,
        ⟨"var t = (Count: 1, 1, ", "point.Y", "Y", none⟩] := by
  have enabled : (Settings.naming .camelCase true).severityFor? descriptor = some .warning := by
    decide
  have listed : violations "var t = " argumentText
      (argumentViolation? (.naming .camelCase true) .latest)
      [.named "Count", .literal "1", .memberAccess "point" "Y"] =
        [⟨"var t = (", "Count", "Count", some "count"⟩,
          ⟨"var t = (Count: 1, 1, ", "point.Y", "Y", none⟩] := by
    decide +kernel
  refine ⟨enabled, ?_⟩
  rw [← listed]
  exact (tuples_found "Literal.cs" BoundSymbols.empty.model .latest enabled).2 _

end Casing

end TreeLint
