import TreeLint.Proofs.Tree.Likeness
import TreeLint.Proofs.Tree.Paths

/-!
# Trees that differ in trivia

Two trees that become equal without trivia have the same nodes in the same order. Their nodes are
paired from the roots down (`TreeLint.Node.Twins`), which makes the trees alike
(`TreeLint.Tree.twins`); the pairs are the nodes with the same number in walks over the trees
(`TreeLint.Node.Twins.exists_index`), and what is above paired nodes is paired again
(`TreeLint.Node.Twins.parent`).
-/

namespace TreeLint

namespace Node

/-- Nodes of two trees on corresponding ways down: both are roots, or child nodes with the same
number below such nodes. Without trivia they are the same. -/
inductive Twins (tree other : Tree) : Node → Node → Prop where
  | root (same : other.element.eraseTrivia = tree.element.eraseTrivia) :
      Twins tree other tree.root other.root
  | child {first second child childToo : Node} {position : Nat}
      (twins : Twins tree other first second) (found : first.children[position]? = some child)
      (foundToo : second.children[position]? = some childToo)
      (same : (Part.node childToo).core = (Part.node child).core) : Twins tree other child childToo

variable {tree other : Tree} {first second : Node}

theorem Twins.core (twins : Twins tree other first second) :
    (Part.node second).core = (Part.node first).core := by
  cases twins with
  | root same => exact same
  | child twins found foundToo same => exact same

theorem Twins.symm (twins : Twins tree other first second) : Twins other tree second first := by
  induction twins with
  | root same => exact .root same.symm
  | child twins found foundToo same ih => exact .child ih foundToo found same.symm

/-- What is above a node has a twin above the node's twin. -/
theorem Twins.parent (twins : Twins tree other first second) {parent : Node}
    (up : first.parent? = some parent) :
    ∃ parentToo, second.parent? = some parentToo ∧ Twins tree other parent parentToo := by
  cases twins with
  | root same => cases up
  | child twins found foundToo same =>
      rw [parent?_of_mem_children (List.mem_of_getElem? found)] at up
      cases up
      exact ⟨_, parent?_of_mem_children (List.mem_of_getElem? foundToo), twins⟩

/-- A node has one twin only. -/
theorem Twins.unique (twins : Twins tree other first second) {third : Node}
    (also : Twins tree other first third) : third = second := by
  induction twins generalizing third with
  | root same =>
      generalize root : tree.root = node at also
      cases also with
      | root same => rfl
      | child twins found foundToo same =>
          have up := parent?_of_mem_children (List.mem_of_getElem? found)
          rw [← root] at up
          cases up
  | @child parent parentToo child childToo position twins found foundToo same ih =>
      have up := parent?_of_mem_children (List.mem_of_getElem? found)
      -- The parents are the same by the node, their twins by induction, and so is the number of the
      -- child because no child node is listed twice.
      cases also with
      | root same => cases up
      | @child otherParent otherParentToo _ _ number twinsToo numbered numberedToo _ =>
          have parents := (parent?_of_mem_children (List.mem_of_getElem? numbered)).symm.trans up
          cases parents
          cases ih twinsToo
          have within := (List.getElem?_eq_some_iff.mp found).1
          have positions : position = number :=
            (List.getElem?_inj within parent.nodup_children).mp (found.trans numbered.symm)
          rw [← positions, foundToo] at numberedToo
          exact (Option.some.inj numberedToo).symm

end Node

/-- Trees are alike in their twins. -/
def Tree.twins (tree other : Tree) : Likeness :=
  .ofNodes (Node.Twins tree other) Node.Twins.core .child

namespace Node

variable {tree other : Tree} {first second : Node}

theorem twins_iff : (tree.twins other).nodes first second ↔ Twins tree other first second :=
  Likeness.nodes_ofNodes

theorem Twins.placed (twins : Twins tree other first second) : first.Placed tree := by
  induction twins with
  | root same => exact .root
  | child twins found foundToo same ih => exact ih.child (List.mem_of_getElem? found)

/-- Twins have the same number in the walks over their trees. -/
theorem Twins.exists_index (same : other.element.eraseTrivia = tree.element.eraseTrivia)
    (twins : Twins tree other first second) : ∃ index : Nat,
      tree.root.descendants[index]? = some first ∧
        other.root.descendants[index]? = some second := by
  -- At the number of the first node the other walk has a twin of it, and there is only one.
  have walks := Likeness.descendants (twins_iff.mpr (.root same))
  obtain ⟨index, found⟩ := List.mem_iff_getElem?.mp twins.placed.mem_descendants
  obtain ⟨within, here⟩ := List.getElem?_eq_some_iff.mp found
  have withinToo : index < other.root.descendants.length := walks.length_eq ▸ within
  have paired := twins_iff.mp (walks.get within withinToo)
  rw [List.get_eq_getElem, List.get_eq_getElem, here] at paired
  refine ⟨index, found, List.getElem?_eq_some_iff.mpr ⟨withinToo, twins.unique paired⟩⟩

end Node

end TreeLint
