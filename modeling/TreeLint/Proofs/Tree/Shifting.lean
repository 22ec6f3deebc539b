import TreeLint.Proofs.Tree.Coverage
import TreeLint.Proofs.Tree.Likeness

/-!
# Trees as parts of longer ones

When the elements below a root get further elements in front of them or behind them, they stand a
number of bytes later, but everything below them and the kinds of everything above them stay the
same (`TreeLint.Part.Shifted`). The two trees are alike in the shifted parts
(`TreeLint.Tree.shifted`).
-/

namespace TreeLint

namespace Part

/-- The nodes above a part, innermost first. -/
def above : Part → List Level
  | .token leaf => leaf.above
  | .node inner => inner.above

/-- The kinds of the nodes above a part, innermost first. -/
def kindsAbove (part : Part) : List NodeKind :=
  part.above.map (·.tree.kind)

/-- The offset of the first byte of a part. -/
def start : Part → Nat
  | .token leaf => leaf.start
  | .node inner => inner.start

/-- A part is another one that stands a number of bytes later, below nodes of the same kinds. -/
structure Shifted (distance : Nat) (first second : Part) : Prop where
  element : second.element = first.element
  start : second.start = first.start + distance
  kindsAbove : second.kindsAbove = first.kindsAbove

variable {distance : Nat} {first second : Part}

theorem kind_element (part : Part) : part.element.kind = part.kind := by
  cases part <;> rfl

theorem Shifted.kind_eq (shifted : Shifted distance first second) : second.kind = first.kind := by
  rw [← second.kind_element, shifted.element, first.kind_element]

/-- A part covers as many bytes from its start on as its element has. -/
theorem span_eq (part : Part) : part.span = ⟨part.start, part.start + part.element.width⟩ := by
  cases part <;> rfl

theorem Shifted.span_eq (shifted : Shifted distance first second) :
    second.span = ⟨first.span.start + distance, first.span.stop + distance⟩ := by
  rw [second.span_eq, first.span_eq, shifted.element, shifted.start, Nat.add_right_comm]

theorem shifted_place {above aboveToo : List Level}
    (kinds : aboveToo.map (·.tree.kind) = above.map (·.tree.kind)) (start distance : Nat)
    (element : Element) : Shifted distance (.place above start element)
      (.place aboveToo (start + distance) element) := by
  cases element <;> exact ⟨rfl, rfl, kinds⟩

end Part

namespace Node

theorem shifted_placeChildren {first second : Node} (kind : second.kind = first.kind)
    (kinds : (Part.node second).kindsAbove = (Part.node first).kindsAbove)
    (index indexToo start distance : Nat) (elements : List Element) :
    List.Forall₂ (Part.Shifted distance) (first.placeChildren index start elements)
      (second.placeChildren indexToo (start + distance) elements) := by
  induction elements generalizing index indexToo start with
  | nil => exact .nil
  | cons element elements ih =>
      have above : (Level.mk second.tree second.start indexToo :: second.above).map
          (·.tree.kind) = (Level.mk first.tree first.start index :: first.above).map
            (·.tree.kind) := congrArg₂ List.cons kind kinds
      rw [placeChildren, placeChildren, Nat.add_right_comm]
      exact .cons (Part.shifted_place above start distance element) (ih _ _ _)

/-- The parts below a shifted node are shifted as far. -/
theorem shifted_parts {first second : Node} {distance : Nat}
    (shifted : Part.Shifted distance (.node first) (.node second)) :
    List.Forall₂ (Part.Shifted distance) first.parts second.parts := by
  have elements : second.tree.children = first.tree.children :=
    (Element.node.inj shifted.element).2
  have start : second.start = first.start + distance := shifted.start
  rw [parts, parts, elements, start]
  exact shifted_placeChildren (Kind.node.inj shifted.kind_eq) shifted.kindsAbove _ _ _ _ _

end Node

/-- Parts of two trees of which the second one is the first one shifted. -/
structure Part.ShiftedIn (tree whole : Tree) (distance : Nat) (first second : Part) : Prop where
  placed : first.Placed tree
  placedToo : second.Placed whole
  shifted : first.Shifted distance second

variable {tree whole : Tree} {distance : Nat}

theorem Part.shiftedIn_of_placed {first second : List Part}
    (shifted : List.Forall₂ (Part.Shifted distance) first second)
    (placed : ∀ part ∈ first, part.Placed tree) (placedToo : ∀ part ∈ second, part.Placed whole) :
    List.Forall₂ (Part.ShiftedIn tree whole distance) first second := by
  induction shifted with
  | nil => exact .nil
  | cons here below ih =>
      have heads : Part.ShiftedIn tree whole distance _ _ :=
        ⟨placed _ List.mem_cons_self, placedToo _ List.mem_cons_self, here⟩
      exact .cons heads (ih (fun part member => placed part (List.mem_cons_of_mem _ member))
        fun part member => placedToo part (List.mem_cons_of_mem _ member))

theorem Part.Placed.node_placed {inner : Node} (placed : (Part.node inner).Placed tree) :
    inner.Placed tree := by
  cases placed with
  | node placed => exact placed

/-- Two trees are alike in the parts of one that are shifted in the other one. -/
def Tree.shifted (tree whole : Tree) (distance : Nat) : Likeness where
  rel := Part.ShiftedIn tree whole distance
  core := fun related => congrArg Element.eraseTrivia related.shifted.element
  below := fun {first second} related => by
    have parts := Part.shiftedIn_of_placed (Node.shifted_parts related.shifted)
      (fun part member => Part.placed_of_mem_parts related.placed.node_placed member)
      fun part member => Part.placed_of_mem_parts related.placedToo.node_placed member
    refine List.rel_filter (fun one other related => ?_) parts
    change (!one.kind.isTrivia) = true ↔ (!other.kind.isTrivia) = true
    rw [related.shifted.kind_eq]

/-! ### Elements side by side -/

namespace Node

theorem placeChildren_append (node : Node) (index start : Nat) (first second : List Element) :
    node.placeChildren index start (first ++ second) =
      node.placeChildren index start first ++
        node.placeChildren (index + first.length) (start + Text.width (Element.charsOfList first))
          second := by
  induction first generalizing index start with
  | nil => rfl
  | cons element first ih =>
      rw [List.cons_append, placeChildren, placeChildren, ih, List.cons_append,
        List.length_cons, Element.charsOfList, Text.width_append, ← Nat.add_assoc start,
        Nat.add_right_comm index, Nat.add_assoc index]
      rfl

theorem viewsFrom_append (node : Node) (kind : NodeKind) (index start : Nat)
    (first second : List Element) :
    node.viewsFrom kind index start (first ++ second) =
      node.viewsFrom kind index start first ++
        node.viewsFrom kind (index + first.length)
          (start + Text.width (Element.charsOfList first)) second := by
  rw [viewsFrom, placeChildren_append, List.filterMap_append, List.filterMap_append]
  rfl

/-- An element below a node is in its place there, behind the elements before it. -/
theorem Placed.exists_child {tree : Tree} {node : Node} (placed : node.Placed tree)
    (before : List Element) {kind : NodeKind} {children after : List Element}
    (split : node.tree.children = before ++ .node kind children :: after) :
    ∃ child : Node, child.Placed tree ∧ child.tree = ⟨kind, children⟩ ∧
      child.start = node.start + Text.width (Element.charsOfList before) ∧
      child.parent? = some node := by
  have member : (⟨⟨kind, children⟩, node.start + Text.width (Element.charsOfList before),
      ⟨node.tree, node.start, 0 + before.length⟩ :: node.above⟩ : Node) ∈ node.children := by
    rw [mem_children, parts, split, placeChildren_append]
    exact List.mem_append_right _ List.mem_cons_self
  exact ⟨_, .child placed member, rfl, rfl, rfl⟩

end Node

theorem Element.charsOfList_append (first second : List Element) :
    charsOfList (first ++ second) = charsOfList first ++ charsOfList second := by
  induction first with
  | nil => rfl
  | cons element first ih =>
      rw [List.cons_append, charsOfList, charsOfList, ih, List.append_assoc]

end TreeLint
