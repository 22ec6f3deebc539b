import TreeLint.Proofs.Tree.Likeness

/-!
# Access chains and the names they end with

An access chain goes from an expression to members of it, step by step, each step with or without a
question mark. The name that a tuple element takes over from a chain is the last identifier of the
chain (`TreeLint.Node.inferredName?_of_chain`), however deep the expression that it starts from and
whichever names occur in it. A conditional access is followed through those in its second place to
where it ends (`TreeLint.ConditionalAccess.EndsWith`), and takes the name over from there, if there
is one.
-/

namespace TreeLint

namespace Element

/-- The elements that are no trivia. -/
def solids (elements : List Element) : List Element :=
  elements.filter (!·.isTrivia)

mutual

/-- The texts of the identifiers that an element spells, in their order. -/
def identifiers : Element → List String
  | .token kind text => (identifier? (.token kind text)).toList
  | .node _ children => identifiersOfList children

/-- The texts of the identifiers that a list of elements spells, in their order. -/
def identifiersOfList : List Element → List String
  | [] => []
  | element :: elements => element.identifiers ++ identifiersOfList elements

end

/-! ### The grammar -/

/-- A simple name: a single identifier. -/
inductive IsName (text : String) : Element → Prop
  | intro {children : List Element} (single : solids children = [.token .identifier text]) :
      IsName text (.node .identifierName children)

/-- What stands behind a question mark: a member, which has nothing in front of its dot, or a chain
that starts with one. -/
inductive AccessTail : Element → Prop
  | binding {children : List Element} {dot text : String} {name : Element}
      (parts : solids children = [.token .dot dot, name]) (named : IsName text name) :
      AccessTail (.node .memberBindingExpression children)
  | member {children : List Element} {receiver name : Element} {dot text : String}
      (parts : solids children = [receiver, .token .dot dot, name]) (tail : AccessTail receiver)
      (named : IsName text name) : AccessTail (.node .memberAccessExpression children)
  | conditional {children : List Element} {receiver rest : Element} {question : String}
      (parts : solids children = [receiver, .token .question question, rest])
      (tail : AccessTail receiver) (tailToo : AccessTail rest) :
      AccessTail (.node .conditionalAccessExpression children)

/-- An access chain: a simple name, a member of an expression, or an expression with a question mark
and what stands behind it. -/
inductive AccessChain : Element → Prop
  | name {text : String} {element : Element} (named : IsName text element) : AccessChain element
  | member {children : List Element} {receiver name : Element} {dot text : String}
      (parts : solids children = [receiver, .token .dot dot, name])
      (expression : receiver.isExpression = true) (named : IsName text name) :
      AccessChain (.node .memberAccessExpression children)
  | conditional {children : List Element} {receiver rest : Element} {question : String}
      (parts : solids children = [receiver, .token .question question, rest])
      (expression : receiver.isExpression = true) (tail : AccessTail rest) :
      AccessChain (.node .conditionalAccessExpression children)

/-! ### What does not depend on trivia -/

theorem eraseTrivia_of_trivia {element : Element} (trivia : element.isTrivia = true) :
    element.eraseTrivia = element := by
  cases element with
  | token kind text => rfl
  | node kind children => exact Bool.noConfusion trivia

theorem filterMap_solids {α : Type} {choose : Element → Option α}
    (blind : ∀ element : Element, element.isTrivia = true → choose element.eraseTrivia = none)
    (elements : List Element) : (solids elements).filterMap choose = elements.filterMap choose := by
  rw [solids, List.filterMap_filter]
  refine congrArg (List.filterMap · elements) (funext fun element => ?_)
  cases trivia : element.isTrivia with
  | true =>
      have nothing := blind element trivia
      rw [eraseTrivia_of_trivia trivia] at nothing
      exact nothing.symm
  | false => rfl

theorem filter_isExpression_solids (elements : List Element) :
    (solids elements).filter isExpression = elements.filter isExpression := by
  rw [solids, List.filter_filter]
  refine congrArg (List.filter · elements) (funext fun element => ?_)
  cases trivia : element.isTrivia with
  | true => rw [isExpression_of_trivia trivia, Bool.false_and]
  | false => rw [Bool.not_false, Bool.and_true]

theorem identifiers_of_trivia {element : Element} (trivia : element.isTrivia = true) :
    element.identifiers = [] := by
  have nothing := identifier?_of_trivia element trivia
  cases element with
  | token kind text =>
      rw [identifiers]
      exact congrArg Option.toList nothing
  | node kind children => exact Bool.noConfusion trivia

theorem identifiersOfList_solids (elements : List Element) :
    identifiersOfList (solids elements) = identifiersOfList elements := by
  induction elements with
  | nil => rfl
  | cons element elements ih =>
      rw [solids, List.filter_cons]
      cases trivia : element.isTrivia with
      | true =>
          change identifiersOfList (solids elements) = _
          rw [ih, identifiersOfList, identifiers_of_trivia trivia, List.nil_append]
      | false =>
          change identifiersOfList (element :: solids elements) = _
          rw [identifiersOfList, identifiersOfList, ih]

/-- The expressions among the elements are counted, and nothing else. -/
theorem inferredNameOfNth?_eq (skipped : Nat) (elements : List Element) :
    inferredNameOfNth? skipped elements =
      ((elements.filter isExpression)[skipped]?).bind inferredName? := by
  induction elements generalizing skipped with
  | nil => cases skipped <;> rfl
  | cons element elements ih =>
      rw [List.filter_cons]
      cases expression : element.isExpression with
      | false =>
          change _ = ((elements.filter isExpression)[skipped]?).bind inferredName?
          rw [← ih]
          cases skipped <;> rw [inferredNameOfNth?, expression] <;> rfl
      | true =>
          cases skipped with
          | zero =>
              rw [inferredNameOfNth?, expression]
              rfl
          | succ skipped =>
              rw [inferredNameOfNth?, expression]
              exact ih skipped

/-! ### Names of chains -/

/-- The name that is taken over from an element is its last identifier. -/
def TakesLast (element : Element) : Prop :=
  ∃ text, element.inferredName? = some text ∧ element.identifiers.getLast? = some text

theorem IsName.children {text : String} {name : Element} (named : IsName text name) :
    ∃ children, name.simpleName? = some children ∧ identifierText? children = some text ∧
      name.identifiers = [text] := by
  cases named with
  | @intro children single =>
      refine ⟨children, rfl, ?_, ?_⟩
      · rw [identifierText?_eq, ← filterMap_solids identifier?_of_trivia, single]
        rfl
      · rw [identifiers, ← identifiersOfList_solids, single]
        rfl

theorem IsName.takesLast {text : String} {element : Element} (named : IsName text element) :
    TakesLast element := by
  obtain ⟨children, simple, first, single⟩ := named.children
  refine ⟨text, ?_, ?_⟩
  · cases named
    cases simple
    rw [inferredName?, first]
  · rw [single]
    rfl

section Forms

variable {parts : List Element} {receiver name rest : Element} {separator text : String}

/-- The receiver does not matter, even if it is a simple name itself. -/
theorem takesLast_of_member (solid : solids parts = [receiver, .token .dot separator, name])
    (named : IsName text name) : TakesLast (.node .memberAccessExpression parts) := by
  obtain ⟨children, simple, first, single⟩ := named.children
  refine ⟨text, ?_, ?_⟩
  · rw [inferredName?, ← filterMap_solids simpleName?_of_trivia, solid]
    have last : ([receiver, .token .dot separator, name].filterMap simpleName?).getLast? =
        some children := by
      rw [List.filterMap_cons, List.filterMap_cons_none rfl, List.filterMap_cons_some simple]
      cases receiver.simpleName? <;> rfl
    rw [last]
    exact first
  · rw [identifiers, ← identifiersOfList_solids, solid]
    change (receiver.identifiers ++ ([] ++ (name.identifiers ++ []))).getLast? = _
    rw [single, List.nil_append, List.append_nil, List.getLast?_concat]

theorem takesLast_of_binding (solid : solids parts = [.token .dot separator, name])
    (named : IsName text name) : TakesLast (.node .memberBindingExpression parts) := by
  obtain ⟨children, simple, first, single⟩ := named.children
  refine ⟨text, ?_, ?_⟩
  · rw [inferredName?, ← List.head?_filterMap, ← filterMap_solids simpleName?_of_trivia, solid,
      List.filterMap_cons_none rfl, List.filterMap_cons_some simple]
    exact first
  · rw [identifiers, ← identifiersOfList_solids, solid]
    change ([] ++ (name.identifiers ++ [])).getLast? = _
    rw [single]
    rfl

/-- The second expression decides. -/
theorem takesLast_of_conditional
    (solid : solids parts = [receiver, .token .question separator, rest])
    (expression : receiver.isExpression = true) (expressionToo : rest.isExpression = true)
    (last : TakesLast rest) : TakesLast (.node .conditionalAccessExpression parts) := by
  obtain ⟨text, taken, ends⟩ := last
  refine ⟨text, ?_, ?_⟩
  · rw [inferredName?, inferredNameOfNth?_eq, ← filter_isExpression_solids, solid]
    have expressions : [receiver, .token .question separator, rest].filter isExpression =
        [receiver, rest] := by
      rw [List.filter_cons_of_pos expression, List.filter_cons_of_neg Bool.false_ne_true,
        List.filter_cons_of_pos expressionToo, List.filter_nil]
    rw [expressions]
    exact taken
  · rw [identifiers, ← identifiersOfList_solids, solid]
    change (receiver.identifiers ++ ([] ++ (rest.identifiers ++ []))).getLast? = _
    rw [List.nil_append, List.append_nil, List.getLast?_append, ends]
    rfl

end Forms

theorem AccessTail.isExpression {element : Element} (tail : AccessTail element) :
    element.isExpression = true := by
  cases tail <;> rfl

theorem AccessTail.takesLast {element : Element} (tail : AccessTail element) :
    TakesLast element := by
  induction tail with
  | binding parts named => exact takesLast_of_binding parts named
  | member parts tail named ih => exact takesLast_of_member parts named
  | conditional parts tail tailToo ih ihToo =>
      exact takesLast_of_conditional parts tail.isExpression tailToo.isExpression ihToo

theorem AccessChain.takesLast {element : Element} (chain : AccessChain element) :
    TakesLast element := by
  cases chain with
  | name named => exact named.takesLast
  | member parts expression named => exact takesLast_of_member parts named
  | conditional parts expression tail =>
      exact takesLast_of_conditional parts expression tail.isExpression tail.takesLast

end Element

/-! ### Chains in place -/

/-- The texts of the identifiers among tokens. -/
def Token.identifiers (tokens : List Token) : List String :=
  (tokens.filter (·.kind = .identifier)).map (·.text)

theorem Token.identifiers_append (first second : List Token) :
    identifiers (first ++ second) = identifiers first ++ identifiers second := by
  rw [identifiers, List.filter_append, List.map_append]
  rfl

namespace Node

theorem identifiers_placeChildren {node : Node} {index start : Nat} {elements : List Element}
    (below : ∀ child : Node, .node child ∈ node.placeChildren index start elements →
      Token.identifiers child.tokens = child.tree.element.identifiers) :
    Token.identifiers ((node.placeChildren index start elements).flatMap Part.tokens) =
      Element.identifiersOfList elements := by
  induction elements generalizing index start with
  | nil => rfl
  | cons element elements ih =>
      have rest := @ih (index + 1) (start + element.width)
        fun child member => below child (List.mem_cons_of_mem _ member)
      -- The first child is a token, or a node to which the assumption applies.
      have first : Token.identifiers (Part.place (⟨node.tree, node.start, index⟩ :: node.above)
          start element).tokens = element.identifiers := by
        cases element with
        | token kind text => cases kind <;> rfl
        | node kind children => exact below _ List.mem_cons_self
      rw [placeChildren, List.flatMap_cons, Token.identifiers_append, first, rest,
        Element.identifiersOfList]

/-- The identifiers among the tokens of a node are those that its element spells. -/
theorem identifiers_tokens (node : Node) :
    Token.identifiers node.tokens = node.tree.element.identifiers := by
  induction node using inductionOn with
  | step node below =>
      rw [tokens_eq]
      exact identifiers_placeChildren fun child member => below child (mem_children.mpr member)

/-- The last identifier of a node. -/
def lastIdentifier? (node : Node) : Option Token :=
  (node.tokens.filter (·.kind = .identifier)).getLast?

theorem lastIdentifier_text (node : Node) :
    node.lastIdentifier?.map (·.text) = node.tree.element.identifiers.getLast? := by
  rw [← identifiers_tokens, Token.identifiers, List.getLast?_map]
  rfl

/-- The expressions among the child nodes are those among the elements. -/
theorem expressions_placeChildren (node : Node) (index start : Nat) (elements : List Element) :
    (((node.placeChildren index start elements).filterMap Part.node?).filter
        (·.kind.expressionForm?.isSome)).map (·.tree.element) =
      elements.filter Element.isExpression := by
  induction elements generalizing index start with
  | nil => rfl
  | cons element elements ih =>
      rw [placeChildren]
      cases element with
      | token kind text => exact ih (index + 1) _
      | node kind children =>
          rw [List.filter_cons]
          change ((_ :: _ : List Node).filter _).map _ = _
          rw [List.filter_cons]
          change List.map _ (if kind.expressionForm?.isSome = true then _ else _) =
            if kind.expressionForm?.isSome = true then _ else _
          split
          · exact congrArg (List.cons _) (ih (index + 1) _)
          · exact ih (index + 1) _

end Node

/-! ### Where conditional accesses end -/

namespace ConditionalAccess

/-- A conditional access takes over what its second expression does. -/
theorem inferredName?_eq (access : ConditionalAccess) :
    access.node.inferredName? = access.whenPresent?.bind Node.inferredName? := by
  have second : access.whenPresent?.map (·.tree.element) =
      (access.node.tree.children.filter Element.isExpression)[1]? := by
    rw [← access.node.expressions_placeChildren 0 access.node.start access.node.tree.children,
      List.getElem?_map]
    rfl
  have whole : access.node.tree.element =
      .node .conditionalAccessExpression access.node.tree.children :=
    congrArg (Element.node · access.node.tree.children) access.kind_eq
  rw [Node.inferredName?, whole, Element.inferredName?, Element.inferredNameOfNth?_eq, ← second,
    Option.bind_map]
  rfl

/-- Where a conditional access ends: the conditional accesses in second places are followed up to
the first second expression that is none, or is missing. -/
inductive EndsWith : ConditionalAccess → Option Node → Prop
  | missing {access : ConditionalAccess} (nothing : access.whenPresent? = none) :
      EndsWith access none
  | here {access : ConditionalAccess} {last : Node} (second : access.whenPresent? = some last)
      (other : last.kind ≠ .conditionalAccessExpression) : EndsWith access (some last)
  | within {access inner : ConditionalAccess} {last : Option Node}
      (second : access.whenPresent? = some inner.node) (ends : EndsWith inner last) :
      EndsWith access last

theorem EndsWith.inferredName?_eq {access : ConditionalAccess} {last : Option Node}
    (ends : access.EndsWith last) : access.node.inferredName? = last.bind Node.inferredName? := by
  induction ends with
  | missing nothing => rw [ConditionalAccess.inferredName?_eq, nothing]
  | here second other => rw [ConditionalAccess.inferredName?_eq, second]
  | within second ends ih => rw [ConditionalAccess.inferredName?_eq, second, Option.bind_some, ih]

theorem exists_endsWith (access : ConditionalAccess) : ∃ last, access.EndsWith last := by
  obtain ⟨node, kind⟩ := access
  induction node using Node.inductionOn with
  | step node below =>
      cases second : ConditionalAccess.whenPresent? ⟨node, kind⟩ with
      | none => exact ⟨none, .missing second⟩
      | some inner =>
          by_cases again : inner.kind = .conditionalAccessExpression
          · have child : inner ∈ node.children :=
              (List.mem_filter.mp (List.mem_of_getElem? second)).1
            obtain ⟨last, ends⟩ := below inner child again
            exact ⟨last, .within second ends⟩
          · exact ⟨some inner, .here second again⟩

end ConditionalAccess

/-- The forms of expressions that no name is taken over from. -/
def ExpressionForm.nameless : List ExpressionForm :=
  [.invocation, .objectCreation, .elementAccess, .tuple, .parenthesized, .anonymousMethod, .lambda,
    .literal]

namespace Node

theorem inferredName?_of_nameless {node : Node} {form : ExpressionForm}
    (expression : node.kind.expressionForm? = some form)
    (nameless : form ∈ ExpressionForm.nameless) : node.inferredName? = none := by
  obtain ⟨⟨kind, children⟩, start, above⟩ := node
  change Element.inferredName? (.node kind children) = none
  cases kind <;> cases expression <;>
    first | exact absurd nameless (by decide) | rfl

/-- **Names of access chains.** The name that is taken over from an access chain, wherever it stands
and whatever trivia there are in it, is its last identifier. Every conditional access ends
somewhere, and takes over what is taken over from there; this is nothing if a second expression is
missing, or if the last one is a call, a tuple, an expression between parentheses, an anonymous
method, a lambda or a literal. -/
theorem inferredName?_of_chain :
    (∀ node : Node, Element.AccessChain node.tree.element →
      ∃ token, node.lastIdentifier? = some token ∧ node.inferredName? = some token.text) ∧
    ∀ access : ConditionalAccess, (∃ last, access.EndsWith last) ∧
      ∀ last, access.EndsWith last →
        access.node.inferredName? = last.bind inferredName? ∧
        ((last = none ∨ ∃ node form, last = some node ∧ node.kind.expressionForm? = some form ∧
            form ∈ ExpressionForm.nameless) → access.node.inferredName? = none) := by
  constructor
  · intro node chain
    obtain ⟨text, taken, ends⟩ := chain.takesLast
    rw [← lastIdentifier_text] at ends
    obtain ⟨token, last, rfl⟩ := Option.map_eq_some_iff.mp ends
    exact ⟨token, last, taken⟩
  · refine fun access => ⟨access.exists_endsWith, fun last ends => ⟨ends.inferredName?_eq, ?_⟩⟩
    rw [ends.inferredName?_eq]
    rintro (rfl | ⟨node, form, rfl, expression, nameless⟩)
    · rfl
    · exact inferredName?_of_nameless expression nameless

/-- The chain `a ?.b.c` with a line feed in front of its last step. -/
def chained : Tree :=
  ⟨.conditionalAccessExpression, [.node .identifierName [.token .identifier "a"],
    .token .whitespace " ", .token .question "?",
    .node .memberAccessExpression [
      .node .memberBindingExpression [.token .dot ".",
        .node .identifierName [.token .identifier "b"]],
      .token .newline "\n", .token .dot ".",
      .node .identifierName [.token .identifier "c"]]]⟩

/-- The call `a?.b()`, behind a question mark. -/
def called : ConditionalAccess :=
  ⟨Tree.root ⟨.conditionalAccessExpression, [.node .identifierName [.token .identifier "a"],
    .token .question "?",
    .node .invocationExpression [
      .node .memberBindingExpression [.token .dot ".",
        .node .identifierName [.token .identifier "b"]],
      .node .argumentList [.token .leftParen "(", .token .rightParen ")"]]]⟩, rfl⟩

theorem inferredName?_of_chained :
    (Element.AccessChain chained.element ∧ chained.root.inferredName? = some "c") ∧
    ∃ last, called.EndsWith (some last) ∧ last.kind.expressionForm? = some .invocation ∧
      called.node.inferredName? = none := by
  obtain ⟨chains, accesses⟩ := inferredName?_of_chain
  constructor
  · have chain : Element.AccessChain chained.element :=
      .conditional rfl rfl (.member rfl (.binding rfl (.intro rfl)) (.intro rfl))
    obtain ⟨token, last, taken⟩ := chains chained.root chain
    cases last
    exact ⟨chain, taken⟩
  · have ends : called.EndsWith (some _) := .here rfl (by decide)
    have call : ExpressionForm.invocation ∈ ExpressionForm.nameless := by decide
    exact ⟨_, ends, rfl, ((accesses called).2 _ ends).2 (.inr ⟨_, _, rfl, rfl, call⟩)⟩

end Node

end TreeLint
