import TreeLint.Proofs.Text.Positions
import TreeLint.Proofs.Tree.Walk
import TreeLint.Rule.Checker

/-!
# What a part of a tree covers

The parts of a tree are its nodes and the tokens below them. A part stands in the text of the tree
at its span: behind the characters in front of it, the text goes on with the characters of the part
(`TreeLint.Part.Placed.covers`). So the location of its span tells the positions behind the
characters in front and behind those of the part (`TreeLint.Context.location_of_covers`).
-/

namespace TreeLint

/-- The characters of a text at a span: what stands in front of them ends where the span starts, and
they end where the span stops. -/
def Text.Covers (text : List Char) (span : Span) (middle : List Char) : Prop :=
  ∃ before after, text = before ++ middle ++ after ∧
    span = ⟨width before, width before + width middle⟩

namespace Part

/-- The characters that a part spells. -/
def chars : Part → List Char
  | .token leaf => leaf.text.toList
  | .node inner => inner.tree.chars

/-- The bytes that a part covers. -/
def span : Part → Span
  | .token leaf => leaf.span
  | .node inner => inner.span

/-- The parts of a tree: its tokens and its nodes. -/
inductive Placed (tree : Tree) : Part → Prop where
  | token {leaf : Token} (member : leaf ∈ tree.root.tokens) : Placed tree (.token leaf)
  | node {inner : Node} (placed : inner.Placed tree) : Placed tree (.node inner)

/-- What stands below a node of a tree is part of the tree. -/
theorem placed_of_mem_parts {tree : Tree} {node : Node} {part : Part} (placed : node.Placed tree)
    (member : part ∈ node.parts) : part.Placed tree := by
  cases part with
  | token leaf => exact .token (placed.mem_tokens (Node.mem_tokens_of_part member))
  | node inner => exact .node (placed.child (Node.mem_children.mpr member))

/-- A part of a tree stands in the text of the tree at its span. -/
theorem Placed.covers {tree : Tree} {part : Part} (placed : part.Placed tree) :
    Text.Covers tree.chars part.span part.chars := by
  cases placed with
  | @token leaf member =>
      obtain ⟨before, after, split⟩ := List.append_of_mem member
      have consecutive := tree.root.tokens_consecutive
      rw [split] at consecutive
      have start := consecutive.start_eq
      change leaf.start = 0 + _ at start
      have spelled := tree.root.spelled_tokens
      rw [split, Token.spelled_append, Token.spelled_cons, ← List.append_assoc] at spelled
      rw [Nat.zero_add] at start
      refine ⟨Token.spelled before, Token.spelled after, spelled.symm, ?_⟩
      rw [span, Token.span, start]
      rfl
  | @node inner placed =>
      obtain ⟨before, after, whole, start⟩ := placed.tokens_split
      have spelled := tree.root.spelled_tokens
      rw [whole, Token.spelled_append, Token.spelled_append, Node.spelled_tokens] at spelled
      refine ⟨Token.spelled before, Token.spelled after, spelled.symm, ?_⟩
      rw [span, Node.span, start]
      rfl

end Part

open Text in
/-- The location of a span is told by the characters in front of it and those it covers. -/
theorem Context.location_of_covers (context : Context) {before middle after : List Char}
    (split : context.unit.tree.chars = before ++ middle ++ after) :
    context.location ⟨width before, width before + width middle⟩ =
      { file := context.unit.path
        line := (Position.behind before).line
        column := (Position.behind before).column
        endLine := some (Position.behind (before ++ middle)).line
        endColumn := some (Position.behind (before ++ middle)).column
        offset := width before
        length := width middle
        span := some ⟨width before, width before + width middle⟩ } := by
  have source : context.source.toList = before ++ middle ++ after :=
    String.toList_ofList.trans split
  have start := LineMap.position_ofText (source.trans (List.append_assoc ..))
  have stop := LineMap.position_ofText source
  rw [width_append] at stop
  rw [location, Location.ofSpan, start, stop, Span.length, Nat.add_sub_cancel_left]

end TreeLint
