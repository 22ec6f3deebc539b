import TreeLint.Proofs.Analysis.Contents
import TreeLint.Proofs.Tree.Coverage

/-!
# Where findings point

A finding of the built-in rules is about one part of the tree: a name, an expression that a name is
taken over from, or a list (`TreeLint.Finding.About`). It points at this part: its location, and the
location of each edit that it suggests, is that of the bytes that the part covers in the text of the
unit (`TreeLint.Engine.findings_cover`).
-/

namespace TreeLint

/-- What a finding of the built-in rules is about: a finding of the casing rule that carries a
corrected name is about the token of the name, which its message cites first, and any other finding
of this rule is about an expression that a name is taken over from; findings of the other rules are
about the first parameter list of an anonymous method and the first argument list of an
attribute. -/
inductive Finding.About (tree : Tree) (found : Finding) : Part → Prop where
  | name {tuple : Node} {token : Token} (placed : tuple.Placed tree)
      (written : token ∈ Casing.writtenNames tuple)
      (rule : found.ruleId = Casing.descriptor.id)
      (carried : (found.property? Casing.namePropertyKey).isSome = true)
      (cited : found.messageArgs.head? = some token.text) : About tree found (.token token)
  | source {tuple expression : Node} (placed : tuple.Placed tree)
      (taken : expression ∈ Casing.sources tuple)
      (rule : found.ruleId = Casing.descriptor.id)
      (bare : found.property? Casing.namePropertyKey = none) : About tree found (.node expression)
  | parameters {anonymous : Node} {list : ParameterList} (placed : anonymous.Placed tree)
      (kind : anonymous.kind = .anonymousMethodExpression)
      (first : anonymous.parameterList? = some list)
      (rule : found.ruleId = AnonymousMethodList.descriptor.id) : About tree found (.node list.node)
  | arguments {attr : Attribute} {list : AttributeArgumentList} (placed : attr.node.Placed tree)
      (first : attr.argumentList? = some list)
      (rule : found.ruleId = AttributeList.descriptor.id) : About tree found (.node list.node)

variable {tree : Tree} {context : Context} {found : Finding}

/-! ### Parts of the tree -/

/-- An expression that a name is taken over from stands in an argument of the tuple literal. -/
theorem Casing.placed_of_mem_sources {tuple expression : Node} (placed : tuple.Placed tree)
    (taken : expression ∈ sources tuple) : expression.Placed tree := by
  unfold sources at taken
  split at taken
  · obtain ⟨argument, listed, first⟩ := List.mem_filterMap.mp taken
    have inside := Node.mem_children_of_childrenAs (List.mem_filter.mp listed).1
    have below := (List.mem_filter.mp (List.mem_of_mem_head? first)).1
    exact (placed.child inside).child below
  · exact absurd taken List.not_mem_nil

theorem Finding.About.placed {part : Part} (about : found.About tree part) : part.Placed tree := by
  cases about with
  | name placed written rule carried cited =>
      exact .token (placed.mem_tokens (Casing.mem_tokens_of_writtenNames written))
  | source placed taken rule bare => exact .node (Casing.placed_of_mem_sources placed taken)
  | parameters placed kind first rule =>
      exact .node (placed.child (Node.mem_children_of_childAs? first))
  | arguments placed first rule =>
      exact .node (placed.child (Node.mem_children_of_childAs? first))

/-! ### Locations -/

/-- A finding points at a span: it is located there, and so are its suggestions. -/
structure Finding.PointsAt (found : Finding) (context : Context) (span : Span) : Prop where
  location : found.location = context.location span
  suggestions : ∀ suggestion ∈ found.suggestions, suggestion.location = context.location span

theorem Casing.about_of_written {tuple : Node} {token : Token} (placed : tuple.Placed tree)
    (written : token ∈ writtenNames tuple) (reported : writtenFinding? context token = some found) :
    found.About tree (.token token) ∧ found.PointsAt context token.span := by
  obtain ⟨fixed, -, rfl⟩ := Option.map_eq_some_iff.mp reported
  refine ⟨.name placed written rfl rfl rfl, rfl, ?_⟩
  intro suggestion member
  rw [List.mem_singleton.mp member]
  rfl

theorem Casing.about_of_inferred {tuple expression : Node} (placed : tuple.Placed tree)
    (taken : expression ∈ sources tuple)
    (reported : inferredFinding? context expression = some found) :
    found.About tree (.node expression) ∧ found.PointsAt context expression.span := by
  obtain ⟨name, -, reported⟩ := Option.bind_eq_some_iff.mp reported
  obtain ⟨fixed, -, reported⟩ := Option.bind_eq_some_iff.mp reported
  cases reported
  refine ⟨.source placed taken rfl rfl, rfl, ?_⟩
  intro suggestion member
  exact absurd member List.not_mem_nil

theorem AnonymousMethodList.about_of_finding? {node : Node} (placed : node.Placed tree)
    (reported : finding? context node = some found) :
    ∃ list : ParameterList, found.About tree (.node list.node) ∧
      found.PointsAt context list.node.span := by
  obtain ⟨list, anonymous, first, -, -, rfl⟩ :=
    (finding?_eq_some_iff context placed found).mp reported
  refine ⟨list, .parameters placed anonymous first rfl, rfl, ?_⟩
  intro suggestion member
  rw [List.mem_singleton.mp member]
  rfl

theorem AttributeList.about_of_mem_findings {node : Node} (placed : node.Placed tree)
    (reported : found ∈ findings context node) :
    ∃ list : AttributeArgumentList, found.About tree (.node list.node) ∧
      found.PointsAt context list.node.span := by
  obtain ⟨attr, list, rfl, first, -, rfl⟩ := mem_findings_iff.mp reported
  refine ⟨list, .arguments placed first rfl, rfl, ?_⟩
  intro suggestion member
  rw [List.mem_singleton.mp member]
  rfl

/-- A finding at a node of a tree is about a part of the tree and points at it. -/
theorem Builtin.exists_about {node : Node} (placed : node.Placed tree)
    (reported : found ∈ findings context node) :
    ∃ part, found.About tree part ∧ found.PointsAt context part.span := by
  rcases mem_findings_iff.mp reported with ⟨-, casing⟩ | ⟨-, removal⟩ | ⟨-, marking⟩
  · rcases Casing.mem_findings_iff.mp casing with ⟨-, token, written, reported⟩ |
      ⟨-, expression, taken, reported⟩
    · exact ⟨.token token, Casing.about_of_written placed written reported⟩
    · exact ⟨.node expression, Casing.about_of_inferred placed taken reported⟩
  · obtain ⟨list, whole⟩ := AnonymousMethodList.about_of_finding? placed removal
    exact ⟨.node list.node, whole⟩
  · obtain ⟨list, whole⟩ := AttributeList.about_of_mem_findings placed marking
    exact ⟨.node list.node, whole⟩

namespace Engine

open Text

/-- **Where findings point.** Whatever becomes of the signal, a finding of the built-in rules is
about a part of the tree. The text of the unit reads `before`, then the characters of the part, then
`after`, and the finding points at the part: its offset and its length are the bytes before and in
the part, its span ends where they end, and its positions are those behind `before` and behind the
part. So the bytes of the finding begin and end between characters and spell the part. The finding
tells this span unless the text is longer than offsets can be, and its suggestions are located where
it is. -/
theorem findings_cover (settings : Settings) (unit : AnalysisUnit) (signal : Signal)
    (member : found ∈ ((builtin settings).analyze unit signal).1.findings) :
    ∃ part before after, found.About unit.tree part ∧
      unit.tree.text.toList = before ++ part.chars ++ after ∧
      found.location.file = unit.path ∧
      found.location.offset = width before ∧
      found.location.offset + found.location.length = width (before ++ part.chars) ∧
      found.location.span =
        some ⟨found.location.offset, found.location.offset + found.location.length⟩ ∧
      (unit.tree.width ≤ Span.maxOffset → found.span? = found.location.span) ∧
      (⟨found.location.line, found.location.column⟩ : Position) = .behind before ∧
      found.location.endLine = some (Position.behind (before ++ part.chars)).line ∧
      found.location.endColumn = some (Position.behind (before ++ part.chars)).column ∧
      slice? unit.tree.text.toList found.location.offset
        (found.location.offset + found.location.length) = some part.chars ∧
      ∀ suggestion ∈ found.suggestions, suggestion.location = found.location := by
  obtain ⟨node, visited, reported⟩ := exists_node_of_mem_findings member
  obtain ⟨part, about, points⟩ :=
    Builtin.exists_about (Node.placed_of_mem_descendants visited) reported
  obtain ⟨before, after, split, span⟩ := about.placed.covers
  have text : unit.tree.text.toList = before ++ part.chars ++ after :=
    String.toList_ofList.trans split
  have location := points.location
  rw [span, Context.location_of_covers ⟨unit, settings⟩ split] at location
  have slice := slice?_append before part.chars after
  have suggested (suggestion : Suggestion) (member : suggestion ∈ found.suggestions) :
      suggestion.location = found.location :=
    (points.suggestions suggestion member).trans points.location.symm
  refine ⟨part, before, after, about, text, ?_⟩
  rw [Finding.span?, text, width_append, location]
  refine ⟨rfl, rfl, rfl, rfl, ?_, rfl, rfl, rfl, slice, ?_⟩
  · intro short
    have fits : width before + width part.chars ≤ Span.maxOffset := by
      rw [Tree.width, split, width_append, width_append] at short
      omega
    rw [Span.ofLength?, if_pos fits]
    rfl
  · rw [← location]
    exact suggested

/-- The file `(int x,⏎ int Ö)` with a tuple type; the second name stands in the second line. -/
def pair : AnalysisUnit :=
  .withoutSemantics "Pair.cs" ⟨.tupleType, [.token .leftParen "(",
    .node .tupleElement [.node .predefinedType [.token .identifier "int"],
      .token .whitespace " ", .token .identifier "x"],
    .token .comma ",", .token .newline "\n", .token .whitespace " ",
    .node .tupleElement [.node .predefinedType [.token .identifier "int"],
      .token .whitespace " ", .token .identifier "Ö"],
    .token .rightParen ")"]⟩

/-- The only finding is about the second name, which is one character of two bytes. -/
theorem findings_cover_pair : ∃ found ∈ ((builtin .default).analyze pair .quiet).1.findings,
    (⟨found.location.line, found.location.column⟩ : Position) = ⟨2, 6⟩ ∧
      found.span? = some ⟨13, 15⟩ ∧ ∃ part, found.About pair.tree part ∧ part.chars = ['Ö'] := by
  let place (found : Finding) : Nat × Nat × Nat × Nat :=
    (found.location.line, found.location.column, found.location.offset, found.location.length)
  have places : ((builtin .default).analyze pair .quiet).1.findings.map place = [(2, 6, 13, 2)] :=
    by decide +kernel
  obtain ⟨found, member, same⟩ := List.mem_map.mp (places ▸ List.mem_singleton_self (2, 6, 13, 2))
  obtain ⟨line, column, offset, length⟩ : found.location.line = 2 ∧ found.location.column = 6 ∧
      found.location.offset = 13 ∧ found.location.length = 2 := by
    simpa only [place, Prod.mk.injEq] using same
  obtain ⟨part, before, after, about, -, -, -, -, span, told, -, -, -, slice, -⟩ :=
    findings_cover .default pair .quiet member
  rw [offset, length] at span slice
  have umlaut : slice? pair.tree.text.toList 13 (13 + 2) = some ['Ö'] := by decide +kernel
  refine ⟨found, member, ?_, ?_, part, about, Option.some.inj (slice.symm.trans umlaut)⟩
  · rw [line, column]
  · rw [told (by decide +kernel), span]

end Engine

end TreeLint
