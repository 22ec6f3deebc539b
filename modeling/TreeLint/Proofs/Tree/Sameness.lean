import TreeLint.Proofs.Correspondence
import TreeLint.Proofs.Tree.Kinds
import TreeLint.Proofs.Tree.Nesting

/-!
# The same node

To be the same node is an equivalence of nodes in place, and it passes on to their child nodes, one
by one (`TreeLint.Node.Same.children`). A child node with text is the same as no other child node
(`TreeLint.Node.Same.eq_of_text`). The position of an argument in a node whose child it is, is
always found: it is that of the first argument that is the same node
(`TreeLint.Node.exists_positionOf?`), which is the rank of the argument unless an argument in front
of it is the same node (`TreeLint.Node.FirstSame.eq_rank_iff`).
-/

namespace TreeLint.Node

/-- Children of two nodes are the same, and the same index leads down to them. -/
structure SameChild (first second child childToo : Node) : Prop where
  same : child.Same childToo
  beside : ∃ index, child.path = index :: first.path ∧ childToo.path = index :: second.path

namespace Same

variable {first second third : Node}

theorem refl (node : Node) : node.Same node where
  start := rfl
  tree := rfl
  stored := .inr rfl

theorem symm (same : first.Same second) : second.Same first where
  start := same.start.symm
  tree := same.tree.symm
  stored := same.stored.imp (same.tree ▸ ·) Eq.symm

theorem trans (former : first.Same second) (latter : second.Same third) : first.Same third where
  start := latter.start.trans former.start
  tree := latter.tree.trans former.tree
  stored := by
    rcases former.stored with shared | path
    · exact .inl shared
    · rw [← former.tree, ← path]
      exact latter.stored

theorem kind_eq (same : first.Same second) : second.kind = first.kind :=
  congrArg Tree.kind same.tree

theorem span_eq (same : first.Same second) : second.span = first.span := by
  rw [span, span, same.start, same.tree]

/-- Nodes that are the same as two nodes are the same exactly if these are. -/
theorem congr {firstToo secondToo : Node} (former : first.Same firstToo)
    (latter : second.Same secondToo) : first.Same second ↔ firstToo.Same secondToo :=
  ⟨fun same => former.symm.trans (same.trans latter),
    fun same => former.trans (same.trans latter.symm)⟩

theorem placeChildren (first second : Node) (index start : Nat) (elements : List Element)
    (stored : Element.areShared elements = true ∨ second.path = first.path) :
    List.Forall₂ (SameChild first second)
      ((first.placeChildren index start elements).filterMap Part.node?)
      ((second.placeChildren index start elements).filterMap Part.node?) := by
  induction elements generalizing index start with
  | nil => exact .nil
  | cons element elements ih =>
      rw [Element.areShared, Bool.and_eq_true] at stored
      have rest := ih (index + 1) (start + element.width) (stored.imp_left And.right)
      rw [Node.placeChildren, Node.placeChildren]
      cases element with
      | token kind text => exact rest
      | node kind children =>
          have here := stored.imp And.left (congrArg (index :: ·))
          exact .cons ⟨⟨rfl, rfl, here⟩, index, rfl, rfl⟩ rest

/-- The children of two nodes that are the same are the same, one by one. -/
theorem children (same : first.Same second) :
    List.Forall₂ (SameChild first second) first.children second.children := by
  rw [Node.children, Node.children, parts, parts, same.start, same.tree]
  refine placeChildren first second 0 first.start first.tree.children ?_
  exact same.stored.imp_left fun shared => ((Bool.and_eq_true ..).mp shared).2

theorem child (same : first.Same second) {position : Nat} {child childToo : Node}
    (found : first.children[position]? = some child)
    (foundToo : second.children[position]? = some childToo) :
    first.SameChild second child childToo := by
  obtain ⟨within, rfl⟩ := List.getElem?_eq_some_iff.mp found
  obtain ⟨withinToo, rfl⟩ := List.getElem?_eq_some_iff.mp foundToo
  exact (List.forall₂_iff_get.mp same.children).2 position within withinToo

theorem childrenAs (kind : NodeKind) (same : first.Same second) :
    List.Forall₂ (fun one two : View kind => one.node.Same two.node) (first.childrenAs kind)
      (second.childrenAs kind) :=
  List.rel_filterMap (fun one two (child : SameChild first second one two) =>
    rel_as? kind child.same.kind_eq child.same) same.children

/-- The first child nodes of a kind are the same, and stand at the same index. -/
theorem childAs? (kind : NodeKind) (same : first.Same second) :
    Option.Rel (fun one two : View kind => first.SameChild second one.node two.node)
      (first.childAs? kind) (second.childAs? kind) :=
  rel_findSome? (fun one two (child : SameChild first second one two) =>
    rel_as? kind child.same.kind_eq child) same.children

/-- If the first child node of a kind has no child nodes of another kind, then the same holds of the
same node. -/
theorem exists_childAs? {kind inner : NodeKind} {list : View kind} (same : first.Same second)
    (found : first.childAs? kind = some list) (nothing : list.node.childrenAs inner = []) :
    ∃ listToo : View kind, second.childAs? kind = some listToo ∧
      listToo.node.childrenAs inner = [] := by
  have lists := same.childAs? kind
  rw [found] at lists
  generalize second.childAs? kind = foundToo at lists
  cases lists with
  | @some _ listToo child =>
      have below := child.same.childrenAs inner
      rw [nothing] at below
      exact ⟨listToo, rfl, List.forall₂_nil_left_iff.mp below⟩

/-- Arguments that are the same have the same position in nodes that are the same. -/
theorem positionOf?_eq {argument argumentToo : Argument} (same : first.Same second)
    (arguments : argument.node.Same argumentToo.node) :
    second.positionOf? argumentToo = first.positionOf? argument :=
  findIdx?_eq_of_rel (same.childrenAs .argument) fun _ _ _ one =>
    decide_eq_decide.mpr (one.congr arguments).symm

/-- A child node with text is the same as no other child node. -/
theorem eq_of_text {node : Node} (former : first ∈ node.children)
    (latter : second ∈ node.children) (same : first.Same second) (text : first.text ≠ "") :
    second = first := by
  by_contra other
  have apart := apart_children former latter (Ne.symm other)
  exact apart.ne (start_lt_stop text) same.span_eq.symm

end Same

/-! ### Positions of arguments -/

variable {node : Node} {argument other : Argument} {position index : Nat}

theorem getElem?_rank (member : argument.node ∈ node.children) :
    node.arguments[argument.node.rank]? = some argument := by
  obtain ⟨view, found, path⟩ := exists_getElem?_rank member
  have listed := mem_children_of_childrenAs (List.mem_of_getElem? found)
  have same := eq_of_path_children listed member path
  rw [arguments, found]
  cases view
  cases argument
  cases same
  rfl

theorem mem_children_of_arguments (found : node.arguments[index]? = some argument) :
    argument.node ∈ node.children :=
  mem_children_of_childrenAs (List.mem_of_getElem? found)

/-- The index of an argument is its rank. -/
theorem rank_of_arguments (found : node.arguments[index]? = some argument) :
    argument.node.rank = index := by
  have ranked := getElem?_rank (mem_children_of_arguments found)
  have paths := node.nodup_paths_childrenAs .argument
  obtain ⟨within, -⟩ := List.getElem?_eq_some_iff.mp ranked
  exact (List.getElem?_inj within paths.of_map).mp (ranked.trans found.symm)

/-- The first of the arguments of a node that is the same node as an argument is the one at a
position. -/
structure FirstSame (node : Node) (argument : Argument) (position : Nat) : Prop where
  here : ∃ first, node.arguments[position]? = some first ∧ first.node.Same argument.node
  alone : ∀ index < position, ∀ other, node.arguments[index]? = some other →
    ¬ other.node.Same argument.node

theorem positionOf?_eq_some_iff :
    node.positionOf? argument = some position ↔ node.FirstSame argument position := by
  rw [positionOf?, List.findIdx?_eq_some_iff_getElem]
  constructor
  · rintro ⟨within, same, earlier⟩
    refine ⟨⟨_, List.getElem?_eq_getElem within, of_decide_eq_true same⟩, ?_⟩
    intro index before other found also
    obtain ⟨inside, rfl⟩ := List.getElem?_eq_some_iff.mp found
    exact earlier index before (decide_eq_true also)
  · rintro ⟨⟨first, found, same⟩, alone⟩
    obtain ⟨within, rfl⟩ := List.getElem?_eq_some_iff.mp found
    refine ⟨within, decide_eq_true same, fun index before also => ?_⟩
    exact alone index before _ (List.getElem?_eq_getElem (Nat.lt_trans before within))
      (of_decide_eq_true also)

namespace FirstSame

theorem le_rank (member : argument.node ∈ node.children)
    (first : node.FirstSame argument position) : position ≤ argument.node.rank := by
  by_contra behind
  exact first.alone _ (Nat.lt_of_not_le behind) argument (getElem?_rank member) (.refl _)

/-- The position is the rank exactly if no argument in front of the argument is the same node. -/
theorem eq_rank_iff (member : argument.node ∈ node.children)
    (first : node.FirstSame argument position) : position = argument.node.rank ↔
      ∀ index < argument.node.rank, ∀ other, node.arguments[index]? = some other →
        ¬ other.node.Same argument.node := by
  constructor
  · rintro rfl
    exact first.alone
  · intro alone
    obtain ⟨same, found, like⟩ := first.here
    refine Nat.le_antisymm (first.le_rank member) (Nat.le_of_not_lt fun before => ?_)
    exact alone position before same found like

/-- The position of an argument with text is its rank. -/
theorem eq_rank_of_text (member : argument.node ∈ node.children)
    (first : node.FirstSame argument position) (text : argument.node.text ≠ "") :
    position = argument.node.rank := by
  obtain ⟨other, found, same⟩ := first.here
  have nodes := same.symm.eq_of_text member (mem_children_of_arguments found) text
  rw [← rank_of_arguments found, nodes]

end FirstSame

/-- The position of an argument in a node whose child it is, is always found. -/
theorem exists_positionOf? (member : argument.node ∈ node.children) :
    ∃ position, node.positionOf? argument = some position ∧ node.FirstSame argument position := by
  cases found : node.positionOf? argument with
  | none =>
      have listed := List.mem_of_getElem? (getElem?_rank member)
      have never := List.findIdx?_eq_none_iff.mp found argument listed
      exact absurd (.refl _) (of_decide_eq_false never)
  | some position => exact ⟨position, rfl, positionOf?_eq_some_iff.mp found⟩

/-- The position of an argument with text is its index among the arguments. -/
theorem positionOf?_getElem? (found : node.arguments[index]? = some argument)
    (text : argument.node.text ≠ "") : node.positionOf? argument = some index := by
  have member := mem_children_of_arguments found
  obtain ⟨position, asked, first⟩ := exists_positionOf? member
  rw [asked, first.eq_rank_of_text member text, rank_of_arguments found]

end TreeLint.Node
