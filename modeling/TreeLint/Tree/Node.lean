import TreeLint.Text.Span
import TreeLint.Tree.Element

/-!
# Nodes and tokens in place

A node in place is a tree together with where it stands: the offset of its first byte and the
nodes above it, each with the index of the child that leads down. A node is told from the others of
its tree by what is stored for it and by its offset. Equal small nodes are stored once, so that they
are the same node where they start at the same offset, as neighbours without text do. A large node
is stored for itself, and is the same as another only if the indexes on their ways down agree.
-/

namespace TreeLint

/-- A node above another element: where it starts, and which of its children leads down. -/
structure Level where
  tree : Tree
  start : Nat
  index : Nat

/-- A node in place, with the nodes above it, innermost first. -/
structure Node where
  tree : Tree
  start : Nat
  above : List Level

/-- A token in place, with the nodes above it, innermost first. -/
structure Token where
  kind : TokenKind
  text : String
  start : Nat
  above : List Level

/-- An element in place. -/
inductive Part where
  | token (token : Token)
  | node (node : Node)

/-- The root of a tree, in place. -/
def Tree.root (tree : Tree) : Node :=
  ⟨tree, 0, []⟩

namespace Token

/-- The bytes the token covers. -/
def span (token : Token) : Span :=
  ⟨token.start, token.start + Text.width token.text.toList⟩

end Token

namespace Part

def place (above : List Level) (start : Nat) : Element → Part
  | .token kind text => .token ⟨kind, text, start, above⟩
  | .node kind children => .node ⟨⟨kind, children⟩, start, above⟩

/-- The kind of an element in place. -/
def kind : Part → Kind
  | .token leaf => .token leaf.kind
  | .node inner => .node inner.tree.kind

/-- The node, if the element is one. -/
def node? : Part → Option Node
  | .token _ => none
  | .node inner => some inner

/-- The token, if the element is one. -/
def token? : Part → Option Token
  | .token leaf => some leaf
  | .node _ => none

end Part

namespace Element

mutual

/-- An element and everything below it, in preorder. -/
def preorder (above : List Level) (start : Nat) : Element → List Part
  | .token kind text => [.token ⟨kind, text, start, above⟩]
  | .node kind children =>
      .node ⟨⟨kind, children⟩, start, above⟩ ::
        preorderList ⟨kind, children⟩ start above 0 start children

/-- The children of a node from one of them on, and everything below them, in preorder. -/
def preorderList (tree : Tree) (treeStart : Nat) (above : List Level) :
    (index start : Nat) → List Element → List Part
  | _, _, [] => []
  | index, start, element :: elements =>
      element.preorder (⟨tree, treeStart, index⟩ :: above) start ++
        preorderList tree treeStart above (index + 1) (start + element.width) elements

end

end Element

namespace Node

def kind (node : Node) : NodeKind :=
  node.tree.kind

/-- The source text a node covers. -/
def text (node : Node) : String :=
  node.tree.text

/-- The bytes a node covers. -/
def span (node : Node) : Span :=
  ⟨node.start, node.start + node.tree.width⟩

/-- The indexes of the children that lead down to the node, innermost first. -/
def path (node : Node) : List Nat :=
  node.above.map (·.index)

/-- Two nodes in place are the same: equal trees start at the same offset, which are stored once or
stand at the same place. -/
structure Same (first second : Node) : Prop where
  start : second.start = first.start
  tree : second.tree = first.tree
  stored : first.tree.isShared = true ∨ second.path = first.path

instance (first second : Node) : Decidable (first.Same second) :=
  decidable_of_iff (second.start = first.start ∧ second.tree = first.tree ∧
      (first.tree.isShared = true ∨ second.path = first.path))
    ⟨fun ⟨start, tree, stored⟩ => ⟨start, tree, stored⟩,
      fun ⟨start, tree, stored⟩ => ⟨start, tree, stored⟩⟩

/-- How many nodes are above the node. -/
def depth (node : Node) : Nat :=
  node.above.length

/-- The node above, if the node is no root. -/
def parent? (node : Node) : Option Node :=
  match node.above with
  | [] => none
  | level :: above => some ⟨level.tree, level.start, above⟩

/-- Puts children of `node` in place, from the child with an index and an offset on. -/
def placeChildren (node : Node) : (index start : Nat) → List Element → List Part
  | _, _, [] => []
  | index, start, element :: elements =>
      .place (⟨node.tree, node.start, index⟩ :: node.above) start element ::
        node.placeChildren (index + 1) (start + element.width) elements

/-- The children of a node in place, tokens included. -/
def parts (node : Node) : List Part :=
  node.placeChildren 0 node.start node.tree.children

/-- The child nodes of a node. -/
def children (node : Node) : List Node :=
  node.parts.filterMap Part.node?

/-- A node and everything below it, tokens included, in preorder. -/
def preorder (node : Node) : List Part :=
  node.tree.element.preorder node.above node.start

/-- A node and the nodes below it, in preorder. -/
def descendants (node : Node) : List Node :=
  node.preorder.filterMap Part.node?

/-- The first node of a kind in preorder. -/
def findFirst? (node : Node) (kind : Kind) : Option Node :=
  node.descendants.find? (.node ·.kind == kind)

/-- The first child token of a kind. -/
def childToken? (node : Node) (kind : TokenKind) : Option Token :=
  (node.parts.filterMap Part.token?).find? (·.kind == kind)

end Node

end TreeLint
