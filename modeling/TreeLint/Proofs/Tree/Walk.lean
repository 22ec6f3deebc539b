import TreeLint.Proofs.Tree.Placement

/-!
# Walks and what they come to

A walk over a node in preorder is the node and then the walks over its children
(`TreeLint.Node.preorder_eq`), so that facts about nodes in place can be proved from those about
their children (`TreeLint.Node.inductionOn`). The walk over a tree comes to all of its nodes
(`TreeLint.Node.Placed.mem_descendants`), and the tokens that it comes to stand one behind the other
and spell the text of the tree (`TreeLint.Node.tokens_consecutive`, `TreeLint.Node.spelled_tokens`).
The tokens whose bytes lie inside of the span of a node are those below it
(`TreeLint.Node.Placed.inside_iff`).
-/

namespace TreeLint

/-- A token, or a node and everything below it, in preorder. -/
def Part.preorder : Part → List Part
  | .token leaf => [.token leaf]
  | .node inner => inner.preorder

namespace Node

theorem preorder_place (above : List Level) (start : Nat) (element : Element) :
    (Part.place above start element).preorder = element.preorder above start := by
  cases element <;> rfl

theorem preorderList_eq (node : Node) (index start : Nat) (elements : List Element) :
    Element.preorderList node.tree node.start node.above index start elements =
      (node.placeChildren index start elements).flatMap Part.preorder := by
  induction elements generalizing index start with
  | nil => rfl
  | cons element elements ih =>
      rw [Element.preorderList, ih, placeChildren, List.flatMap_cons, preorder_place]

theorem preorder_eq (node : Node) :
    node.preorder = .node node :: node.parts.flatMap Part.preorder :=
  congrArg (Part.node node :: ·) (node.preorderList_eq 0 node.start node.tree.children)

/-- What holds of a node whenever it holds of its child nodes holds of all nodes. -/
@[elab_as_elim]
theorem inductionOn {motive : Node → Prop} (node : Node)
    (step : ∀ node, (∀ child ∈ node.children, motive child) → motive node) : motive node := by
  induction size : sizeOf node.tree.element using Nat.strongRecOn generalizing node with
  | ind _ smaller =>
      subst size
      refine step node fun child member => smaller _ ?_ child rfl
      obtain ⟨index, found, -⟩ := place_of_mem_children member
      have inside := List.sizeOf_lt_of_mem (List.mem_of_getElem? found)
      change _ < sizeOf (Element.node node.tree.kind node.tree.children)
      rw [Element.node.sizeOf_spec]
      omega

/-! ### The nodes of a walk -/

theorem filterMap_flatMap_preorder (parts : List Part) :
    (parts.flatMap Part.preorder).filterMap Part.node? =
      (parts.filterMap Part.node?).flatMap descendants := by
  induction parts with
  | nil => rfl
  | cons part parts ih =>
      rw [List.flatMap_cons, List.filterMap_append, ih]
      cases part with
      | token leaf => rfl
      | node inner => rfl

theorem descendants_eq (node : Node) :
    node.descendants = node :: node.children.flatMap descendants := by
  rw [descendants, preorder_eq]
  change node :: (node.parts.flatMap Part.preorder).filterMap Part.node? = _
  rw [filterMap_flatMap_preorder]
  rfl

theorem mem_descendants_of_child {node : Node} : ∀ {parent child : Node},
    parent ∈ node.descendants → child ∈ parent.children → child ∈ node.descendants := by
  induction node using inductionOn with
  | step node below =>
      intro parent child visited member
      rw [descendants_eq] at visited ⊢
      rcases List.mem_cons.mp visited with rfl | inside
      · refine List.mem_cons_of_mem _ (List.mem_flatMap.mpr ⟨child, member, ?_⟩)
        rw [descendants_eq]
        exact List.mem_cons_self
      · obtain ⟨inner, listed, visited⟩ := List.mem_flatMap.mp inside
        refine List.mem_cons_of_mem _ (List.mem_flatMap.mpr ⟨inner, listed, ?_⟩)
        exact below inner listed visited member

/-- A walk over a tree comes to all of its nodes. -/
theorem Placed.mem_descendants {tree : Tree} {node : Node} (placed : node.Placed tree) :
    node ∈ tree.root.descendants := by
  induction placed with
  | root =>
      rw [descendants_eq]
      exact List.mem_cons_self
  | child placed member ih => exact mem_descendants_of_child ih member

end Node

/-! ### The tokens of a walk -/

/-- A node's tokens in the order of the text. -/
def Node.tokens (node : Node) : List Token :=
  node.preorder.filterMap Part.token?

/-- The token, or the tokens of the node. -/
def Part.tokens : Part → List Token
  | .token leaf => [leaf]
  | .node inner => inner.tokens

namespace Token

/-- Tokens that stand one behind the other, the first of them at an offset. -/
def Consecutive : Nat → List Token → Prop
  | _, [] => True
  | start, token :: tokens => token.start = start ∧ Consecutive token.span.stop tokens

/-- The characters that tokens spell. -/
def spelled (tokens : List Token) : List Char :=
  tokens.flatMap (·.text.toList)

theorem spelled_cons (token : Token) (tokens : List Token) :
    spelled (token :: tokens) = token.text.toList ++ spelled tokens :=
  List.flatMap_cons

theorem spelled_append (first second : List Token) :
    spelled (first ++ second) = spelled first ++ spelled second :=
  List.flatMap_append

theorem stop_span (token : Token) :
    token.span.stop = token.start + Text.width token.text.toList := rfl

theorem Consecutive.append {start : Nat} {first second : List Token}
    (former : Consecutive start first)
    (latter : Consecutive (start + Text.width (spelled first)) second) :
    Consecutive start (first ++ second) := by
  induction first generalizing start with
  | nil => exact latter
  | cons token first ih =>
      obtain ⟨here, rest⟩ := former
      refine ⟨here, ih rest ?_⟩
      rw [stop_span, here, Nat.add_assoc, ← Text.width_append, ← spelled_cons]
      exact latter

theorem Consecutive.of_append {start : Nat} {first second : List Token}
    (whole : Consecutive start (first ++ second)) :
    Consecutive start first ∧ Consecutive (start + Text.width (spelled first)) second := by
  induction first generalizing start with
  | nil => exact ⟨trivial, whole⟩
  | cons token first ih =>
      obtain ⟨here, rest⟩ := whole
      obtain ⟨former, latter⟩ := ih rest
      refine ⟨⟨here, former⟩, ?_⟩
      rw [spelled_cons, Text.width_append, ← Nat.add_assoc, ← here, ← stop_span]
      exact latter

theorem Consecutive.start_eq {start : Nat} {before after : List Token} {token : Token}
    (whole : Consecutive start (before ++ token :: after)) :
    token.start = start + Text.width (spelled before) :=
  whole.of_append.2.1

end Token

namespace Node

theorem filterMap_flatMap_tokens (parts : List Part) :
    (parts.flatMap Part.preorder).filterMap Part.token? = parts.flatMap Part.tokens := by
  induction parts with
  | nil => rfl
  | cons part parts ih =>
      rw [List.flatMap_cons, List.filterMap_append, ih, List.flatMap_cons]
      cases part with
      | token leaf => rfl
      | node inner => rfl

theorem tokens_eq (node : Node) : node.tokens = node.parts.flatMap Part.tokens := by
  rw [tokens, preorder_eq]
  exact filterMap_flatMap_tokens node.parts

theorem mem_tokens_of_part {node : Node} {token : Token} (member : .token token ∈ node.parts) :
    token ∈ node.tokens := by
  rw [tokens_eq]
  exact List.mem_flatMap.mpr ⟨.token token, member, List.mem_singleton_self _⟩

theorem mem_tokens_of_child {node child : Node} {token : Token} (member : child ∈ node.children)
    (below : token ∈ child.tokens) : token ∈ node.tokens := by
  rw [tokens_eq]
  exact List.mem_flatMap.mpr ⟨.node child, mem_children.mp member, below⟩

theorem tokens_placeChildren {node : Node} {index start : Nat} {elements : List Element}
    (below : ∀ child : Node, .node child ∈ node.placeChildren index start elements →
      Token.Consecutive child.start child.tokens ∧
        Token.spelled child.tokens = child.tree.chars) :
    Token.Consecutive start ((node.placeChildren index start elements).flatMap Part.tokens) ∧
      Token.spelled ((node.placeChildren index start elements).flatMap Part.tokens) =
        Element.charsOfList elements := by
  induction elements generalizing index start with
  | nil => exact ⟨trivial, rfl⟩
  | cons element elements ih =>
      obtain ⟨rest, spelledRest⟩ := @ih (index + 1) (start + element.width)
        fun child member => below child (List.mem_cons_of_mem _ member)
      -- The first child is a token, or a node to which the assumption applies.
      have first :
          Token.Consecutive start (Part.place (⟨node.tree, node.start, index⟩ :: node.above)
            start element).tokens ∧
          Token.spelled (Part.place (⟨node.tree, node.start, index⟩ :: node.above)
            start element).tokens = element.chars := by
        cases element with
        | token kind text => exact ⟨⟨rfl, trivial⟩, List.append_nil _⟩
        | node kind children => exact below _ List.mem_cons_self
      rw [placeChildren, List.flatMap_cons, Token.spelled_append, first.2, spelledRest]
      refine ⟨first.1.append ?_, rfl⟩
      rw [first.2]
      exact rest

theorem tokens_spell (node : Node) : Token.Consecutive node.start node.tokens ∧
    Token.spelled node.tokens = node.tree.chars := by
  induction node using inductionOn with
  | step node below =>
      rw [tokens_eq]
      exact tokens_placeChildren fun child member => below child (mem_children.mpr member)

theorem tokens_consecutive (node : Node) : Token.Consecutive node.start node.tokens :=
  node.tokens_spell.1

theorem spelled_tokens (node : Node) : Token.spelled node.tokens = node.tree.chars :=
  node.tokens_spell.2

theorem spelled_place (above : List Level) (start : Nat) (element : Element) :
    Token.spelled (Part.place above start element).tokens = element.chars := by
  cases element with
  | token kind text => exact List.append_nil _
  | node kind children => exact spelled_tokens _

/-- A child node starts behind what the children before it spell. -/
theorem start_of_placeChildren {node child : Node} {index start : Nat} {elements : List Element}
    {former latter : List Part}
    (split : node.placeChildren index start elements = former ++ .node child :: latter) :
    child.start = start + Text.width (Token.spelled (former.flatMap Part.tokens)) := by
  induction elements generalizing index start former with
  | nil => exact absurd split.symm (List.append_ne_nil_of_right_ne_nil _ (List.cons_ne_nil _ _))
  | cons element elements ih =>
      rw [placeChildren] at split
      cases former with
      | nil =>
          cases element with
          | token kind text => exact Part.noConfusion (List.cons.inj split).1
          | node kind children =>
              cases (List.cons.inj split).1
              rfl
      | cons first former =>
          obtain ⟨rfl, rest⟩ := List.cons.inj split
          rw [ih rest, List.flatMap_cons, Token.spelled_append, spelled_place, Text.width_append,
            ← Nat.add_assoc]
          rfl

/-- The tokens of a node of a tree are among the tokens of the tree, all in one place; the node
starts behind what the tokens before them spell. -/
theorem Placed.tokens_split {tree : Tree} {node : Node} (placed : node.Placed tree) :
    ∃ before after, tree.root.tokens = before ++ node.tokens ++ after ∧
      node.start = Text.width (Token.spelled before) := by
  induction placed with
  | root => exact ⟨[], [], (List.append_nil _).symm, rfl⟩
  | @child parent node placed member ih =>
      obtain ⟨before, after, whole, start⟩ := ih
      obtain ⟨former, latter, split⟩ := List.append_of_mem (mem_children.mp member)
      refine ⟨before ++ former.flatMap Part.tokens, latter.flatMap Part.tokens ++ after, ?_, ?_⟩
      · rw [whole, tokens_eq, split, List.flatMap_append, List.flatMap_cons]
        simp only [List.append_assoc]
        rfl
      · rw [start_of_placeChildren split, start, Token.spelled_append, Text.width_append]

theorem Placed.mem_tokens {tree : Tree} {node : Node} {token : Token} (placed : node.Placed tree)
    (member : token ∈ node.tokens) : token ∈ tree.root.tokens := by
  obtain ⟨before, after, whole, -⟩ := placed.tokens_split
  rw [whole]
  exact List.mem_append_left _ (List.mem_append_right _ member)

end Node

/-! ### Tokens inside of a span -/

/-- The bytes of a token lie inside of a span, and there are some. -/
structure Token.Inside (token : Token) (span : Span) : Prop where
  text : token.text ≠ ""
  start : span.start ≤ token.start
  stop : token.span.stop ≤ span.stop

namespace Token

/-- Tokens in a row stand between the offset of the first and the end of what they spell. -/
theorem Consecutive.between {start : Nat} {tokens : List Token} {token : Token}
    (consecutive : Consecutive start tokens) (member : token ∈ tokens) :
    start ≤ token.start ∧ token.span.stop ≤ start + Text.width (spelled tokens) := by
  obtain ⟨before, after, rfl⟩ := List.append_of_mem member
  rw [stop_span, consecutive.start_eq, spelled_append, spelled_cons, Text.width_append,
    Text.width_append]
  omega

theorem start_lt_stop {token : Token} (text : token.text ≠ "") :
    token.start < token.span.stop := by
  have spelled := fun nothing => text (String.toList_eq_nil_iff.mp nothing)
  rw [stop_span]
  exact Nat.lt_add_of_pos_right (Text.width_pos spelled)

end Token

/-- A token with text lies inside of the span of a node exactly if it is one of the node's. -/
theorem Node.Placed.inside_iff {tree : Tree} {node : Node} (placed : node.Placed tree)
    {token : Token} (member : token ∈ tree.root.tokens) :
    token.Inside node.span ↔ token.text ≠ "" ∧ token ∈ node.tokens := by
  obtain ⟨before, after, whole, start⟩ := placed.tokens_split
  have consecutive : Token.Consecutive 0 (before ++ node.tokens ++ after) := by
    rw [← whole]
    exact tree.root.tokens_consecutive
  obtain ⟨left, right⟩ := consecutive.of_append
  have stop : node.span.stop = Text.width (Token.spelled (before ++ node.tokens)) := by
    change node.start + Text.width node.tree.chars = _
    rw [start, Token.spelled_append, Text.width_append, spelled_tokens]
  constructor
  · intro inside
    refine ⟨inside.text, ?_⟩
    have some := Token.start_lt_stop inside.text
    have behindStart : node.start ≤ token.start := inside.start
    have upto := inside.stop
    rw [whole] at member
    rcases List.mem_append.mp member with inFront | behind
    · rcases List.mem_append.mp inFront with inFront | here
      · have bounds := left.of_append.1.between inFront
        omega
      · exact here
    · have bounds := right.between behind
      omega
  · rintro ⟨text, below⟩
    have bounds := node.tokens_consecutive.between below
    rw [spelled_tokens] at bounds
    exact ⟨text, bounds.1, bounds.2⟩

end TreeLint
