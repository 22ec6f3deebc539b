import TreeLint.Proofs.Tree.Walk
import TreeLint.Rule.Casing

/-!
# Names that are checked

Which names the casing rule looks at is decided by the kinds of the elements of a tree alone: the
names that are written down in a tuple type or in the labels of a tuple literal, and the expressions
of a tuple literal that names are taken over from. The findings about a node are those about these
(`TreeLint.Casing.mem_findings_iff`).
-/

namespace TreeLint

namespace Casing

/-- The name in the label of an argument. -/
def labelName? (argument : Argument) : Option Token :=
  argument.nameColon?.bind NameColon.name?

/-- The names that are written down at a node: those of the elements of a tuple type, or those in
the labels of a tuple literal. -/
def writtenNames (node : Node) : List Token :=
  if node.kind = .tupleType then (node.childrenAs .tupleElement).filterMap TupleElement.name?
  else if node.kind = .tupleExpression then node.arguments.filterMap labelName?
  else []

/-- The expressions that a node takes names over from: those of the arguments of a tuple literal
that have no label. -/
def sources (node : Node) : List Node :=
  if node.kind = .tupleExpression then
    (node.arguments.filter (·.nameColon?.isNone)).filterMap Argument.expression?
  else []

theorem mem_tokens_of_name? {element : TupleElement} {token : Token}
    (name : TupleElement.name? element = some token) : token ∈ element.node.tokens := by
  obtain ⟨part, listed, isToken⟩ := List.mem_filterMap.mp (List.mem_of_find?_eq_some name)
  cases part with
  | token leaf =>
      cases isToken
      exact Node.mem_tokens_of_part (List.mem_filter.mp (List.mem_of_mem_drop listed)).1
  | node inner => cases isToken

theorem mem_tokens_of_labelName? {argument : Argument} {token : Token}
    (name : labelName? argument = some token) : token ∈ argument.node.tokens := by
  obtain ⟨label, first, name⟩ := Option.bind_eq_some_iff.mp name
  exact Node.mem_tokens_of_child (Node.mem_children_of_childAs? first)
    (List.mem_of_find?_eq_some name)

/-- A name that is looked at at a node is a token of the node. -/
theorem mem_tokens_of_writtenNames {node : Node} {token : Token}
    (member : token ∈ writtenNames node) : token ∈ node.tokens := by
  unfold writtenNames at member
  split at member
  · obtain ⟨element, listed, name⟩ := List.mem_filterMap.mp member
    exact Node.mem_tokens_of_child (Node.mem_children_of_childrenAs listed)
      (mem_tokens_of_name? name)
  · split at member
    · obtain ⟨argument, listed, name⟩ := List.mem_filterMap.mp member
      exact Node.mem_tokens_of_child (Node.mem_children_of_childrenAs listed)
        (mem_tokens_of_labelName? name)
    · exact absurd member List.not_mem_nil

variable {context : Context} {node : Node} {found : Finding}

theorem elementFinding?_eq_some_iff {element : TupleElement} :
    elementFinding? context element = some found ↔ checksWritten context = true ∧
      ∃ token, TupleElement.name? element = some token ∧
        writtenFinding? context token = some found := by
  unfold elementFinding?
  by_cases checked : checksWritten context = true
  · simp only [checked, ↓reduceIte, Option.bind_eq_some_iff, true_and]
  · simp only [checked, Bool.false_eq_true, ↓reduceIte, reduceCtorEq, false_and]

/-- A label, even one without a name, keeps the argument from taking a name over. -/
theorem argumentFinding?_eq_some_iff {argument : Argument} :
    argumentFinding? context argument = some found ↔
      (checksWritten context = true ∧ ∃ token, labelName? argument = some token ∧
        writtenFinding? context token = some found) ∨
      (checksInferred context = true ∧ argument.nameColon? = none ∧
        ∃ expression, argument.expression? = some expression ∧
          inferredFinding? context expression = some found) := by
  unfold argumentFinding? labelName?
  cases label : argument.nameColon? with
  | some label =>
      by_cases checked : checksWritten context = true
      · simp only [checked, ↓reduceIte, Option.bind_eq_some_iff, Option.bind_some, true_and,
          reduceCtorEq, false_and, and_false, or_false]
      · simp only [checked, Bool.false_eq_true, ↓reduceIte, reduceCtorEq, false_and, and_false,
          or_false]
  | none =>
      by_cases checked : checksInferred context = true
      · simp only [checked, ↓reduceIte, Option.bind_eq_some_iff, Option.bind_none, true_and,
          reduceCtorEq, false_and, exists_false, and_false, false_or]
      · simp only [checked, Bool.false_eq_true, ↓reduceIte, Option.bind_none, reduceCtorEq,
          false_and, exists_false, and_false, or_false]

/-- The findings about a node are those about the names that are written down there, where these
are checked, and about the expressions that it takes names over from, where these are checked. -/
theorem mem_findings_iff : found ∈ findings context node ↔
    (checksWritten context = true ∧ ∃ token ∈ writtenNames node,
      writtenFinding? context token = some found) ∨
    (checksInferred context = true ∧ ∃ expression ∈ sources node,
      inferredFinding? context expression = some found) := by
  unfold findings writtenNames sources
  by_cases isType : node.kind = .tupleType
  · have noLiteral : node.kind ≠ .tupleExpression := by
      rw [isType]
      decide
    rw [Node.as?_of_kind isType, if_pos isType, if_neg noLiteral]
    simp only [TupleType.elements, List.mem_filterMap, elementFinding?_eq_some_iff,
      List.not_mem_nil, false_and, exists_false, and_false, or_false]
    constructor
    · rintro ⟨element, member, checked, token, name, reported⟩
      exact ⟨checked, token, ⟨element, member, name⟩, reported⟩
    · rintro ⟨checked, token, ⟨element, member, name⟩, reported⟩
      exact ⟨element, member, checked, token, name, reported⟩
  · rw [Node.as?_of_other isType, if_neg isType]
    by_cases isLiteral : node.kind = .tupleExpression
    · rw [Node.as?_of_kind isLiteral, if_pos isLiteral, if_pos isLiteral]
      simp only [List.mem_filterMap, argumentFinding?_eq_some_iff, List.mem_filter,
        Option.isNone_iff_eq_none]
      constructor
      · rintro ⟨argument, member, written | taken⟩
        · obtain ⟨checked, token, name, reported⟩ := written
          exact .inl ⟨checked, token, ⟨argument, member, name⟩, reported⟩
        · obtain ⟨checked, bare, expression, first, reported⟩ := taken
          exact .inr ⟨checked, expression, ⟨argument, ⟨member, bare⟩, first⟩, reported⟩
      · rintro (⟨checked, token, ⟨argument, member, name⟩, reported⟩ |
          ⟨checked, expression, ⟨argument, ⟨member, bare⟩, first⟩, reported⟩)
        · exact ⟨argument, member, .inl ⟨checked, token, name, reported⟩⟩
        · exact ⟨argument, member, .inr ⟨checked, bare, expression, first, reported⟩⟩
    · rw [Node.as?_of_other isLiteral, if_neg isLiteral, if_neg isLiteral]
      simp only [List.not_mem_nil, false_and, exists_false, and_false, or_false]

end Casing

end TreeLint
