import TreeLint.Proofs.Tree.Likeness
import TreeLint.Proofs.Tree.Sameness

/-!
# Copies

Arguments of one node that are the same node have the same nodes below them. Two nodes at the same
place below two such arguments are copies of each other. Copies are the same node
(`TreeLint.Node.Copies.same`), and what is above them is a copy again or one node
(`TreeLint.Node.Copies.parent`). Where all arguments have text, a node has no copy but itself
(`TreeLint.Node.Copies.eq_of_text`).
-/

namespace TreeLint

namespace Node

/-- Nodes of a tree are copies of each other: they are one node, or two arguments of a node that are
the same, or child nodes with the same number of such nodes. -/
inductive Copies (tree : Tree) : Node → Node → Prop where
  | refl {node : Node} (placed : node.Placed tree) : Copies tree node node
  | argument {node : Node} {one two : Argument} (placed : node.Placed tree)
      (former : one.node ∈ node.children) (latter : two.node ∈ node.children)
      (same : one.node.Same two.node) : Copies tree one.node two.node
  | child {first second child childToo : Node} {position : Nat} (copies : Copies tree first second)
      (found : first.children[position]? = some child)
      (foundToo : second.children[position]? = some childToo) : Copies tree child childToo

namespace Copies

variable {tree : Tree} {first second : Node}

theorem symm (copies : Copies tree first second) : Copies tree second first := by
  induction copies with
  | refl placed => exact .refl placed
  | argument placed former latter same => exact .argument placed latter former same.symm
  | child copies found foundToo ih => exact .child ih foundToo found

theorem placed (copies : Copies tree first second) : first.Placed tree := by
  induction copies with
  | refl placed => exact placed
  | argument placed former latter same => exact placed.child former
  | child copies found foundToo ih => exact ih.child (List.mem_of_getElem? found)

/-- Copies are the same node. -/
theorem same (copies : Copies tree first second) : first.Same second := by
  induction copies with
  | refl placed => exact .refl _
  | argument placed former latter same => exact same
  | child copies found foundToo ih => exact (ih.child found foundToo).same

theorem core (copies : Copies tree first second) :
    (Part.node second).core = (Part.node first).core :=
  congrArg (fun tree : Tree => tree.element.eraseTrivia) copies.same.tree

/-- What is above copies are copies. -/
theorem parent (copies : Copies tree first second) {parent : Node}
    (up : first.parent? = some parent) :
    ∃ parentToo, second.parent? = some parentToo ∧ Copies tree parent parentToo := by
  cases copies with
  | refl placed => exact ⟨parent, up, .refl (placed.of_parent? up).1⟩
  | argument placed former latter same =>
      rw [parent?_of_mem_children former] at up
      cases up
      exact ⟨_, parent?_of_mem_children latter, .refl placed⟩
  | child copies found foundToo =>
      rw [parent?_of_mem_children (List.mem_of_getElem? found)] at up
      cases up
      exact ⟨_, parent?_of_mem_children (List.mem_of_getElem? foundToo), copies⟩

/-- A child node has a copy below the copy of the node, at the same index. -/
theorem exists_child (copies : Copies tree first second) {child : Node}
    (member : child ∈ first.children) : ∃ childToo, Copies tree child childToo ∧
      first.SameChild second child childToo := by
  obtain ⟨position, found⟩ := List.mem_iff_getElem?.mp member
  obtain ⟨within, -⟩ := List.getElem?_eq_some_iff.mp found
  have lengths := copies.same.children.length_eq
  have foundToo := List.getElem?_eq_getElem (l := second.children) (lengths ▸ within)
  exact ⟨_, copies.child found foundToo, copies.same.child found foundToo⟩

/-- What stands at a way down from a node has a copy at the same way down from its copy. -/
theorem exists_below (copies : Copies tree first second) {node : Node} (placed : node.Placed tree)
    {way : List Nat} (path : node.path = way ++ first.path) :
    ∃ nodeToo, Copies tree node nodeToo ∧ nodeToo.path = way ++ second.path := by
  induction way generalizing node with
  | nil =>
      cases placed.eq_of_path copies.placed path
      exact ⟨second, copies, rfl⟩
  | cons index way ih =>
      cases placed with
      | root => cases path
      | child above member =>
          obtain ⟨_, here⟩ := path_of_mem_children member
          obtain ⟨rfl, up⟩ := List.cons.inj (here.symm.trans path)
          obtain ⟨parentToo, parents, pathToo⟩ := ih above up
          obtain ⟨nodeToo, found, -, _, down, downToo⟩ := parents.exists_child member
          obtain ⟨rfl, -⟩ := List.cons.inj (here.symm.trans down)
          exact ⟨nodeToo, found, downToo.trans (congrArg (_ :: ·) pathToo)⟩

/-- A node has no copy but itself where all arguments have text. -/
theorem eq_of_text (copies : Copies tree first second)
    (text : ∀ node ∈ tree.root.descendants, node.kind = .argument → node.text ≠ "") :
    second = first := by
  induction copies with
  | refl placed => rfl
  | @argument node one two placed former latter same =>
      have spelled := text _ (placed.child former).mem_descendants one.kind_eq
      exact same.eq_of_text former latter spelled
  | child copies found foundToo ih =>
      cases ih
      exact Option.some.inj (foundToo.symm.trans found)

end Copies

/-- The same ways down are listed below copies. -/
def ListsAlike (tree : Tree) (paths : List (List Nat)) : Prop :=
  ∀ first second, Copies tree first second → ∀ way ≠ [],
    way ++ first.path ∈ paths ↔ way ++ second.path ∈ paths

end Node

/-- A tree is like itself in the copies of its nodes. -/
def Tree.copies (tree : Tree) : Likeness :=
  .ofNodes (Node.Copies tree) Node.Copies.core fun copies found foundToo _ =>
    .child copies found foundToo

theorem Node.copies_iff {tree : Tree} {first second : Node} :
    tree.copies.nodes first second ↔ Copies tree first second :=
  Likeness.nodes_ofNodes

end TreeLint
