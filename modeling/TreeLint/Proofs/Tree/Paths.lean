import Mathlib.Data.List.Nodup
import TreeLint.Proofs.Tree.Placement

/-!
# Ways down to nodes

The ways down from the root tell the nodes of a tree apart (`TreeLint.Node.Placed.eq_of_path`), and
so do they with the children of one node (`TreeLint.Node.nodup_children`). The rank of a child node
is the number of nodes of its kind among the child nodes before it
(`TreeLint.Node.rank_of_getElem?`).
-/

namespace TreeLint.Node

theorem path_of_mem_children {node child : Node} (member : child ∈ node.children) :
    ∃ index, child.path = index :: node.path := by
  obtain ⟨index, -, above⟩ := place_of_mem_children member
  refine ⟨index, ?_⟩
  rw [path, above]
  rfl

/-- The indexes of later children are larger. -/
theorem nodup_paths_placeChildren (node : Node) (index start : Nat) (elements : List Element) :
    (((node.placeChildren index start elements).filterMap Part.node?).map path).Nodup := by
  induction elements generalizing index start with
  | nil => exact .nil
  | cons element elements ih =>
      rw [placeChildren]
      cases element with
      | token kind text => exact ih (index + 1) _
      | node kind children =>
          refine List.nodup_cons.mpr ⟨fun repeated => ?_, ih (index + 1) _⟩
          obtain ⟨later, listed, same⟩ := List.mem_map.mp repeated
          obtain ⟨part, listed, isNode⟩ := List.mem_filterMap.mp listed
          cases part with
          | token leaf => cases isNode
          | node inner =>
              cases isNode
              obtain ⟨offset, -, above⟩ := place_of_mem_placeChildren listed
              rw [path, above] at same
              have indexes : index + 1 + offset = index := (List.cons.inj same).1
              omega

theorem eq_of_path_children {node first second : Node} (former : first ∈ node.children)
    (latter : second ∈ node.children) (same : first.path = second.path) : first = second :=
  List.inj_on_of_nodup_map (node.nodup_paths_placeChildren 0 node.start node.tree.children)
    former latter same

theorem nodup_children (node : Node) : node.children.Nodup :=
  (node.nodup_paths_placeChildren 0 node.start node.tree.children).of_map

/-- The ways down tell the nodes of a tree apart. -/
theorem Placed.eq_of_path {tree : Tree} {first second : Node} (former : first.Placed tree)
    (latter : second.Placed tree) (same : first.path = second.path) : first = second := by
  induction former generalizing second with
  | root =>
      cases latter with
      | root => rfl
      | child _ member =>
          obtain ⟨index, path⟩ := path_of_mem_children member
          rw [path] at same
          exact absurd same (List.cons_ne_nil _ _).symm
  | @child parent node placed member ih =>
      obtain ⟨index, path⟩ := path_of_mem_children member
      cases latter with
      | root =>
          rw [path] at same
          exact absurd same (List.cons_ne_nil _ _)
      | @child otherParent _ placedToo memberToo =>
          obtain ⟨other, pathToo⟩ := path_of_mem_children memberToo
          have parents : parent.path = otherParent.path := by
            rw [path, pathToo] at same
            exact (List.cons.inj same).2
          cases ih placedToo parents
          exact eq_of_path_children member memberToo same

/-- The only child of a kind is the first one. -/
theorem childAs?_of_single {node child : Node} {kind : NodeKind}
    (single : (node.childrenAs kind).length ≤ 1) (member : child ∈ node.children)
    (same : child.kind = kind) : node.childAs? kind = some ⟨child, same⟩ := by
  have listed : ⟨child, same⟩ ∈ node.childrenAs kind :=
    List.mem_filterMap.mpr ⟨child, member, as?_of_kind same⟩
  rw [childAs?, ← List.head?_filterMap]
  change (node.childrenAs kind).head? = _
  cases views : node.childrenAs kind with
  | nil =>
      rw [views] at listed
      exact absurd listed List.not_mem_nil
  | cons view others =>
      rw [views, List.length_cons] at single
      have alone : others = [] := List.length_eq_zero_iff.mp (by omega)
      rw [views, alone] at listed
      rw [List.mem_singleton.mp listed]
      rfl

/-- The child nodes of a kind that stand before a child node are the elements of this kind that
stand before it. -/
theorem countP_take_placeChildren {node child : Node} {index start position : Nat}
    {elements : List Element}
    (found : ((node.placeChildren index start elements).filterMap Part.node?)[position]? =
      some child) :
    ∃ offset, child.above = ⟨node.tree, node.start, index + offset⟩ :: node.above ∧
      ∀ kind : NodeKind, (elements.take offset).countP (·.kind = .node kind) =
        (((node.placeChildren index start elements).filterMap Part.node?).take position).countP
          (·.kind = kind) := by
  induction elements generalizing index start position with
  | nil => exact nomatch found
  | cons element elements ih =>
      rw [placeChildren] at found ⊢
      cases element with
      | token kind text =>
          obtain ⟨offset, above, counts⟩ := @ih _ _ position found
          refine ⟨offset + 1, ?_, fun kind => ?_⟩
          · rw [above, Nat.add_right_comm, Nat.add_assoc]
          · exact counts kind
      | node inner children =>
          cases position with
          | zero =>
              cases found
              exact ⟨0, rfl, fun kind => rfl⟩
          | succ position =>
              obtain ⟨offset, above, counts⟩ := @ih _ _ position found
              refine ⟨offset + 1, ?_, fun other => ?_⟩
              · rw [above, Nat.add_right_comm, Nat.add_assoc]
              · rw [List.take_succ_cons, List.countP_cons, counts other]
                change _ = ((_ : Node) :: List.take position _).countP _
                rw [List.countP_cons]
                simp only [Element.kind, Node.kind, Kind.node.injEq]
                rfl

/-- The rank of a child node counts the nodes of its kind among the child nodes before it. -/
theorem rank_of_getElem? {node child : Node} {position : Nat}
    (found : node.children[position]? = some child) :
    child.rank = (node.children.take position).countP (·.kind = child.kind) := by
  obtain ⟨offset, above, counts⟩ := countP_take_placeChildren found
  rw [rank, above, Nat.zero_add]
  exact counts child.kind

end TreeLint.Node
