import Mathlib.Data.List.Pairwise
import TreeLint.Proofs.Tree.Building

/-!
# How nodes nest

The children of a node stand one behind the other and within it. So two nodes of a tree are the same
node, or one is below the other, or their spans do not overlap (`TreeLint.Node.nested_or_apart`).
A node with text and another with the same span are therefore one below the other, and the upper one
has a child node that covers all of it; without such child nodes the spans of nodes tell them apart
(`TreeLint.Node.Placed.eq_of_span`).
-/

namespace TreeLint

/-- One span ends before the other starts. -/
def Span.Apart (first second : Span) : Prop :=
  first.stop ≤ second.start ∨ second.stop ≤ first.start

/-- A span lies in another. -/
structure Span.Within (inner outer : Span) : Prop where
  start : outer.start ≤ inner.start
  stop : inner.stop ≤ outer.stop

namespace Span

theorem Within.refl (span : Span) : span.Within span where
  start := Nat.le_refl _
  stop := Nat.le_refl _

theorem Within.trans {inner middle outer : Span} (former : inner.Within middle)
    (latter : middle.Within outer) : inner.Within outer where
  start := Nat.le_trans latter.start former.start
  stop := Nat.le_trans former.stop latter.stop

/-- Spans that lie in each other are the same. -/
theorem Within.antisymm {first second : Span} (former : first.Within second)
    (latter : second.Within first) : first = second := by
  have starts := Nat.le_antisymm latter.start former.start
  have stops := Nat.le_antisymm former.stop latter.stop
  cases first
  cases second
  exact congr (congrArg Span.mk starts) stops

theorem Apart.symm {first second : Span} (apart : first.Apart second) : second.Apart first :=
  Or.symm apart

/-- What lies in spans that are apart is apart. -/
theorem Apart.within {first second inner innerToo : Span} (apart : first.Apart second)
    (former : inner.Within first) (latter : innerToo.Within second) : inner.Apart innerToo := by
  rcases apart with before | behind
  · left
    exact former.stop.trans (before.trans latter.start)
  · right
    exact latter.stop.trans (behind.trans former.start)

theorem Apart.ne {first second : Span} (apart : first.Apart second)
    (some : first.start < first.stop) : first ≠ second := by
  rintro rfl
  exact Nat.not_le_of_gt some (or_self_iff.mp apart)

end Span

namespace Part

theorem start_le_stop (part : Part) : part.span.start ≤ part.span.stop := by
  cases part with
  | token leaf => exact Nat.le_add_right _ _
  | node inner => exact Nat.le_add_right _ _

theorem Tile.within {start stop : Nat} {parts : List Part} (tile : Tile start stop parts) :
    start ≤ stop ∧ ∀ part ∈ parts, part.span.Within ⟨start, stop⟩ := by
  induction parts generalizing start with
  | nil => exact ⟨Nat.le_of_eq tile, fun _ member => absurd member List.not_mem_nil⟩
  | cons first parts ih =>
      obtain ⟨rfl, rest⟩ := tile
      obtain ⟨ends, behind⟩ := ih rest
      refine ⟨first.start_le_stop.trans ends, fun part member => ?_⟩
      rcases List.mem_cons.mp member with rfl | member
      · exact ⟨Nat.le_refl _, ends⟩
      · have later := behind part member
        exact ⟨first.start_le_stop.trans later.start, later.stop⟩

theorem Tile.pairwise {start stop : Nat} {parts : List Part} (tile : Tile start stop parts) :
    parts.Pairwise (·.span.Apart ·.span) := by
  induction parts generalizing start with
  | nil => exact .nil
  | cons first parts ih =>
      refine .cons (fun part member => ?_) (ih tile.2)
      exact .inl (tile.2.within.2 part member).start

end Part

namespace Node

/-- A node is further down than another: a child node of the other, or below one. -/
def Below (inner outer : Node) : Prop :=
  ∃ child ∈ outer.children, inner ∈ child.descendants

theorem within_of_mem_children {node child : Node} (member : child ∈ node.children) :
    child.span.Within node.span :=
  node.tile_parts.within.2 (.node child) (mem_children.mp member)

theorem apart_children {node first second : Node} (former : first ∈ node.children)
    (latter : second ∈ node.children) (other : first ≠ second) : first.span.Apart second.span := by
  have symmetric : Std.Symm fun first second : Part => first.span.Apart second.span :=
    ⟨fun _ _ => Span.Apart.symm⟩
  exact node.tile_parts.pairwise.forall (mem_children.mp former) (mem_children.mp latter)
    fun same => other (Part.node.inj same)

theorem within_of_mem_descendants {node : Node} :
    ∀ inner ∈ node.descendants, inner.span.Within node.span := by
  induction node using inductionOn with
  | step node below =>
      intro inner visited
      rw [descendants_eq] at visited
      rcases List.mem_cons.mp visited with rfl | inside
      · exact .refl _
      · obtain ⟨child, member, visited⟩ := List.mem_flatMap.mp inside
        exact (below child member inner visited).trans (within_of_mem_children member)

/-- If the node further down covers all of the other, then so does the child node that leads to
it. -/
theorem Below.exists_child {inner outer : Node} (below : inner.Below outer)
    (same : inner.span = outer.span) : ∃ child ∈ outer.children, child.span = outer.span := by
  obtain ⟨child, member, visited⟩ := below
  have inside := within_of_mem_descendants inner visited
  rw [same] at inside
  exact ⟨child, member, (within_of_mem_children member).antisymm inside⟩

/-- Two nodes are the same, or one is below the other, or they do not overlap. -/
theorem nested_or_apart {root : Node} : ∀ first ∈ root.descendants, ∀ second ∈ root.descendants,
    first = second ∨ first.Below second ∨ second.Below first ∨ first.span.Apart second.span := by
  induction root using inductionOn with
  | step node below =>
      intro first former second latter
      rw [descendants_eq] at former latter
      rcases List.mem_cons.mp former with rfl | former
      · rcases List.mem_cons.mp latter with rfl | latter
        · exact .inl rfl
        · exact .inr (.inr (.inl (List.mem_flatMap.mp latter)))
      · obtain ⟨child, member, visited⟩ := List.mem_flatMap.mp former
        rcases List.mem_cons.mp latter with rfl | latter
        · exact .inr (.inl ⟨child, member, visited⟩)
        · obtain ⟨childToo, memberToo, visitedToo⟩ := List.mem_flatMap.mp latter
          by_cases same : child = childToo
          · subst same
            exact below child member first visited second visitedToo
          · have apart := apart_children member memberToo same
            have parts := apart.within (within_of_mem_descendants first visited)
              (within_of_mem_descendants second visitedToo)
            exact .inr (.inr (.inr parts))

theorem start_lt_stop {node : Node} (text : node.text ≠ "") :
    node.span.start < node.span.stop := by
  have spelled : node.tree.chars ≠ [] := by
    intro nothing
    apply text
    rw [Node.text, Tree.text, nothing, String.ofList_nil]
  have some : 0 < node.tree.width := Text.width_pos spelled
  exact Nat.lt_add_of_pos_right some

/-- Nodes with text that have no child node of their own span are told apart by their spans. -/
theorem Placed.eq_of_span {tree : Tree} {first second : Node} (former : first.Placed tree)
    (latter : second.Placed tree) (text : first.text ≠ "")
    (alone : ∀ child ∈ first.children, child.span ≠ first.span)
    (aloneToo : ∀ child ∈ second.children, child.span ≠ second.span)
    (same : first.span = second.span) : first = second := by
  rcases nested_or_apart first former.mem_descendants second latter.mem_descendants with
    equal | below | above | apart
  · exact equal
  · obtain ⟨child, member, whole⟩ := below.exists_child same
    exact absurd whole (aloneToo child member)
  · obtain ⟨child, member, whole⟩ := above.exists_child same.symm
    exact absurd whole (alone child member)
  · exact absurd same (apart.ne (start_lt_stop text))

end Node

end TreeLint
