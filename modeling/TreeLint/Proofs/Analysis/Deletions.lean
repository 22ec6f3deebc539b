import TreeLint.Proofs.Analysis.Contents
import TreeLint.Proofs.Rule.Decision
import TreeLint.Proofs.Tree.Walk

/-!
# What deletions take away

The two rules about lists offer to delete a list without parameters or arguments, and the edit may
be applied without review. A list has none when no child node of it is a parameter or an argument;
what else is below it, such as the debris of a failed parse, is not looked at. So an edit takes
away nothing but parentheses and trivia exactly if there is nothing else below its list
(`TreeLint.Engine.sparesCode_iff`).
-/

namespace TreeLint

/-- Parentheses and trivia. -/
def TokenKind.isBare (kind : TokenKind) : Bool :=
  kind.isTrivia || kind = .leftParen || kind = .rightParen

namespace Element

mutual

/-- Every token of an element that has text is a parenthesis or trivia. -/
def isBare : Element → Bool
  | .token kind text => text.isEmpty || kind.isBare
  | .node _ children => allBare children

def allBare : List Element → Bool
  | [] => true
  | element :: elements => element.isBare && allBare elements

end

end Element

namespace Node

theorem allBare_iff {node : Node} {index start : Nat} {elements : List Element}
    (below : ∀ child : Node, .node child ∈ node.placeChildren index start elements →
      (child.tree.element.isBare = true ↔
        ∀ token ∈ child.tokens, token.text ≠ "" → token.kind.isBare = true)) :
    Element.allBare elements = true ↔
      ∀ token ∈ (node.placeChildren index start elements).flatMap Part.tokens,
        token.text ≠ "" → token.kind.isBare = true := by
  induction elements generalizing index start with
  | nil => exact ⟨fun _ token member => absurd member List.not_mem_nil, fun _ => rfl⟩
  | cons element elements ih =>
      have rest := @ih (index + 1) (start + element.width)
        fun child member => below child (List.mem_cons_of_mem _ member)
      have first : element.isBare = true ↔ ∀ token ∈ (Part.place
          (⟨node.tree, node.start, index⟩ :: node.above) start element).tokens,
            token.text ≠ "" → token.kind.isBare = true := by
        cases element with
        | token kind text =>
            simp only [Element.isBare, Part.place, Part.tokens, List.mem_singleton, forall_eq,
              Bool.or_eq_true, String.isEmpty_iff, ne_eq, Decidable.or_iff_not_imp_left]
        | node kind children => exact below _ List.mem_cons_self
      rw [Element.allBare, Bool.and_eq_true, first, rest, placeChildren, List.flatMap_cons]
      simp only [List.mem_append, or_imp, forall_and]

theorem isBare_iff (node : Node) : node.tree.element.isBare = true ↔
    ∀ token ∈ node.tokens, token.text ≠ "" → token.kind.isBare = true := by
  induction node using inductionOn with
  | step node below =>
      rw [tokens_eq]
      exact allBare_iff fun child member => below child (mem_children.mpr member)

end Node

/-- The lists that a rule may offer to delete: the first parameter list of an anonymous method, if
no child node of it is a parameter, and the first argument list of an attribute, if no child node
of it is an argument. -/
inductive EmptyList (tree : Tree) : Node → Prop where
  | parameters {owner : Node} (list : ParameterList) (placed : owner.Placed tree)
      (anonymous : owner.kind = .anonymousMethodExpression)
      (first : owner.parameterList? = some list) (nothing : list.parameters = []) :
      EmptyList tree list.node
  | arguments (attr : Attribute) (list : AttributeArgumentList) (placed : attr.node.Placed tree)
      (first : attr.argumentList? = some list) (nothing : list.arguments = []) :
      EmptyList tree list.node

theorem EmptyList.placed {tree : Tree} {list : Node} (empty : EmptyList tree list) :
    list.Placed tree := by
  cases empty with
  | parameters list placed _ first _ => exact placed.child (Node.mem_children_of_childAs? first)
  | arguments attr list placed first _ => exact placed.child (Node.mem_children_of_childAs? first)

/-- An edit takes no token with text but parentheses and trivia. -/
def Suggestion.SparesCode (edit : Suggestion) (tree : Tree) : Prop :=
  ∀ span, edit.location.span = some span → ∀ token ∈ tree.root.tokens, token.Inside span →
    token.kind.isTrivia = true ∨ token.kind = .leftParen ∨ token.kind = .rightParen

/-- An edit of the bytes of a node spares the code exactly if the node is bare. -/
theorem Suggestion.sparesCode_iff_isBare {edit : Suggestion} {tree : Tree} {node : Node}
    (placed : node.Placed tree) (covers : edit.location.span = some node.span) :
    edit.SparesCode tree ↔ node.tree.element.isBare = true := by
  have kinds (kind : TokenKind) : kind.isBare = true ↔
      kind.isTrivia = true ∨ kind = .leftParen ∨ kind = .rightParen := by
    simp only [TokenKind.isBare, Bool.or_eq_true, decide_eq_true_eq, or_assoc]
  rw [node.isBare_iff]
  constructor
  · intro spares token below text
    obtain ⟨before, after, whole, -⟩ := placed.tokens_split
    have member : token ∈ tree.root.tokens := by
      rw [whole]
      exact List.mem_append_left _ (List.mem_append_right _ below)
    rw [kinds]
    exact spares node.span covers token member ((placed.inside_iff member).mpr ⟨text, below⟩)
  · intro bare span covered token member inside
    rw [covers] at covered
    cases covered
    obtain ⟨text, below⟩ := (placed.inside_iff member).mp inside
    rw [← kinds]
    exact bare token below text

namespace Casing

/-- The edits of the casing rule are for review. -/
theorem applicability_of_mem {context : Context} {node : Node} {found : Finding}
    {edit : Suggestion} (member : found ∈ findings context node)
    (suggested : edit ∈ found.suggestions) : edit.applicability = .maybeIncorrect := by
  rcases mem_findings_iff.mp member with ⟨-, token, -, reported⟩ | ⟨-, expression, -, reported⟩
  · obtain ⟨fixed, -, rfl⟩ := Option.map_eq_some_iff.mp reported
    rw [List.mem_singleton.mp suggested]
    rfl
  · obtain ⟨name, -, reported⟩ := Option.bind_eq_some_iff.mp reported
    obtain ⟨fixed, -, reported⟩ := Option.bind_eq_some_iff.mp reported
    cases reported
    exact absurd suggested List.not_mem_nil

end Casing

namespace Engine

/-- Every edit that may be applied without review deletes the bytes of a list without parameters or
arguments. -/
theorem exists_emptyList {settings : Settings} {unit : AnalysisUnit} {signal : Signal}
    {found : Finding} {edit : Suggestion}
    (member : found ∈ ((builtin settings).analyze unit signal).1.findings)
    (suggested : edit ∈ found.suggestions) (always : edit.applicability = .always) :
    edit.replacement = "" ∧
      ∃ list, EmptyList unit.tree list ∧ edit.location.span = some list.span := by
  obtain ⟨node, visited, reported⟩ := exists_node_of_mem_findings member
  have placed := Node.placed_of_mem_descendants visited
  rcases Builtin.mem_findings_iff.mp reported with ⟨-, casing⟩ | ⟨-, removal⟩ | ⟨-, marking⟩
  · have review := Casing.applicability_of_mem casing suggested
    rw [always] at review
    exact Applicability.noConfusion review
  · obtain ⟨list, anonymous, first, nothing, -, rfl⟩ :=
      (AnonymousMethodList.finding?_eq_some_iff _ placed found).mp removal
    rw [List.mem_singleton.mp suggested]
    exact ⟨rfl, list.node, .parameters list placed anonymous first nothing, rfl⟩
  · obtain ⟨attr, list, rfl, first, nothing, rfl⟩ := AttributeList.mem_findings_iff.mp marking
    rw [List.mem_singleton.mp suggested]
    exact ⟨rfl, list.node, .arguments attr list placed first nothing, rfl⟩

/-- **What deletions take away.** Whatever the tree, the answers of the host, the settings and the
signal, an edit that may be applied without review deletes the bytes of a list in which no child
node is a parameter or an argument. It takes away no token with text but parentheses and trivia
exactly if there is no other token with text below the list. -/
theorem sparesCode_iff (settings : Settings) (unit : AnalysisUnit) (signal : Signal) :
    ∀ found ∈ ((builtin settings).analyze unit signal).1.findings, ∀ edit ∈ found.suggestions,
      edit.applicability = .always → edit.replacement = "" ∧
        (∃ list, EmptyList unit.tree list ∧ edit.location.span = some list.span) ∧
        ∀ list, EmptyList unit.tree list → edit.location.span = some list.span →
          (edit.SparesCode unit.tree ↔ list.tree.element.isBare = true) := by
  intro found member edit suggested always
  obtain ⟨deletes, list⟩ := exists_emptyList member suggested always
  refine ⟨deletes, list, fun other empty covers => ?_⟩
  exact Suggestion.sparesCode_iff_isBare empty.placed covers

/-- A file with an anonymous method whose parameter list has the given children. -/
def methodWith (children : List Element) : AnalysisUnit :=
  .withoutSemantics "Method.cs" ⟨.compilationUnit, [
    .node .anonymousMethodExpression [.token .delegateKeyword "delegate",
      .node .parameterList children,
      .node .block [.token .leftBrace "\x7b", .token .rightBrace "\x7d"]]]⟩

/-- A list that holds a blank. -/
def blank : AnalysisUnit :=
  methodWith [.token .leftParen "(", .token .whitespace " ", .token .rightParen ")"]

/-- A list in which a parse has failed at a name. -/
def debris : AnalysisUnit :=
  methodWith [.token .leftParen "(", .node .error [.token .identifier "x"],
    .token .rightParen ")"]

theorem exists_edit_of_listed (unit : AnalysisUnit) (span : Span)
    (listed : (Applicability.always, some span) ∈
      (((builtin .default).analyze unit .quiet).1.findings.flatMap (·.suggestions)).map
        fun edit => (edit.applicability, edit.location.span)) :
    ∃ found ∈ ((builtin .default).analyze unit .quiet).1.findings,
      ∃ edit ∈ found.suggestions, edit.applicability = .always ∧
        edit.location.span = some span := by
  obtain ⟨edit, suggested, same⟩ := List.mem_map.mp listed
  obtain ⟨found, member, suggested⟩ := List.mem_flatMap.mp suggested
  obtain ⟨always, covers⟩ := Prod.mk.inj same
  exact ⟨found, member, edit, suggested, always, covers⟩

/-- The blank is deleted together with the parentheses, and nothing else is. -/
theorem sparesCode_blank : ∃ found ∈ ((builtin .default).analyze blank .quiet).1.findings,
    ∃ edit ∈ found.suggestions, edit.applicability = .always ∧ edit.SparesCode blank.tree := by
  obtain ⟨found, member, edit, suggested, always, covers⟩ :=
    exists_edit_of_listed blank ⟨8, 11⟩ (by decide)
  obtain ⟨-, -, spares⟩ :=
    sparesCode_iff .default blank .quiet found member edit suggested always
  have placed (index : Nat) (node : Node)
      (found : blank.tree.root.descendants[index]? = some node) : node.Placed blank.tree :=
    Node.placed_of_mem_descendants (List.mem_of_getElem? found)
  have empty : EmptyList blank.tree _ := .parameters _ (placed 1 _ rfl) rfl rfl rfl
  exact ⟨found, member, edit, suggested, always, (spares _ empty covers).mpr rfl⟩

/-- So it is not true that edits which may be applied without review take away nothing but
parentheses and trivia: the name in the list goes with them. -/
theorem not_forall_sparesCode : ¬ ∀ settings unit signal,
    ∀ found ∈ ((builtin settings).analyze unit signal).1.findings, ∀ edit ∈ found.suggestions,
      edit.applicability = .always → edit.SparesCode unit.tree := by
  intro spares
  obtain ⟨found, member, edit, suggested, always, covers⟩ :=
    exists_edit_of_listed debris ⟨8, 11⟩ (by decide)
  have list : debris.tree.root.descendants[2]? = some _ := rfl
  have placed := Node.placed_of_mem_descendants (List.mem_of_getElem? list)
  have bare := (Suggestion.sparesCode_iff_isBare placed covers).mp
    (spares .default debris .quiet found member edit suggested always)
  exact absurd bare (by decide)

end Engine

end TreeLint
