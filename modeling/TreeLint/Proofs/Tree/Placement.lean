import TreeLint.Tree.View

/-!
# Nodes in their places

The nodes of a tree are its root and the child nodes of its nodes. A walk in preorder comes to no
other nodes (`TreeLint.Node.placed_of_mem_descendants`) and ends with one that has no child nodes
(`TreeLint.Node.descendants_eq_append`). A child node is found among the children of the node above
it, behind as many nodes of its kind as precede it there (`TreeLint.Node.exists_getElem?_rank`).
-/

namespace TreeLint

/-- The nodes of a tree in their places. -/
inductive Node.Placed (tree : Tree) : Node → Prop where
  | root : Placed tree tree.root
  | child {parent node : Node} (placed : Placed tree parent) (member : node ∈ parent.children) :
      Placed tree node

namespace Node

/-- How many nodes of its kind precede a node among the children of the node above. -/
def rank (node : Node) : Nat :=
  match node.above with
  | [] => 0
  | level :: _ => (level.tree.children.take level.index).countP (·.kind = .node node.kind)

theorem as?_of_kind {node : Node} {kind : NodeKind} (same : node.kind = kind) :
    node.as? kind = some ⟨node, same⟩ :=
  dif_pos same

theorem as?_of_other {node : Node} {kind : NodeKind} (other : node.kind ≠ kind) :
    node.as? kind = none :=
  dif_neg other

/-- Related nodes of the same kind are related views. -/
theorem rel_as? {related : Node → Node → Prop} {first second : Node} (kind : NodeKind)
    (same : second.kind = first.kind) (like : related first second) :
    Option.Rel (fun one two : View kind => related one.node two.node) (first.as? kind)
      (second.as? kind) := by
  by_cases matching : first.kind = kind
  · rw [as?_of_kind matching, as?_of_kind (same.trans matching)]
    exact .some like
  · rw [as?_of_other matching, as?_of_other fun also => matching (same.symm.trans also)]
    exact .none

theorem as?_node {node : Node} {kind : NodeKind} {view : View kind}
    (same : node.as? kind = some view) : view.node = node := by
  unfold as? at same
  split at same
  · cases same
    rfl
  · cases same

theorem mem_children_of_childAs? {node : Node} {kind : NodeKind} {view : View kind}
    (first : node.childAs? kind = some view) : view.node ∈ node.children := by
  obtain ⟨child, member, known⟩ := List.exists_of_findSome?_eq_some first
  rw [as?_node known]
  exact member

theorem mem_children_of_childrenAs {node : Node} {kind : NodeKind} {view : View kind}
    (member : view ∈ node.childrenAs kind) : view.node ∈ node.children := by
  obtain ⟨child, listed, known⟩ := List.mem_filterMap.mp member
  rw [as?_node known]
  exact listed

theorem mem_children {node child : Node} :
    child ∈ node.children ↔ .node child ∈ node.parts := by
  unfold children
  rw [List.mem_filterMap]
  constructor
  · rintro ⟨part, member, same⟩
    cases part with
    | token leaf => cases same
    | node inner =>
        cases same
        exact member
  · exact fun member => ⟨.node child, member, rfl⟩

/-- Where a child node stands: its tree is the element at the index that leads down to it. -/
theorem place_of_mem_placeChildren {node child : Node} {index start : Nat}
    {elements : List Element} (member : .node child ∈ node.placeChildren index start elements) :
    ∃ offset, elements[offset]? = some child.tree.element ∧
      child.above = ⟨node.tree, node.start, index + offset⟩ :: node.above := by
  induction elements generalizing index start with
  | nil => exact absurd member List.not_mem_nil
  | cons element elements ih =>
      rcases List.mem_cons.mp member with here | below
      · refine ⟨0, ?_⟩
        cases element with
        | token kind text => exact Part.noConfusion here
        | node kind children =>
            cases here
            exact ⟨rfl, rfl⟩
      · obtain ⟨offset, found, above⟩ := ih below
        refine ⟨offset + 1, found, ?_⟩
        rw [above, Nat.add_right_comm, Nat.add_assoc]

theorem place_of_mem_children {node child : Node} (member : child ∈ node.children) :
    ∃ index, node.tree.children[index]? = some child.tree.element ∧
      child.above = ⟨node.tree, node.start, index⟩ :: node.above := by
  obtain ⟨index, found, above⟩ := place_of_mem_placeChildren (mem_children.mp member)
  rw [Nat.zero_add] at above
  exact ⟨index, found, above⟩

/-- A child node has the node it is a child of above it. -/
theorem parent?_of_mem_children {node child : Node} (member : child ∈ node.children) :
    child.parent? = some node := by
  obtain ⟨index, -, above⟩ := place_of_mem_children member
  unfold parent?
  rw [above]

/-- A node with a node above is one of the child nodes of that node, which is in its place too. -/
theorem Placed.of_parent? {tree : Tree} {node parent : Node} (placed : node.Placed tree)
    (up : node.parent? = some parent) : parent.Placed tree ∧ node ∈ parent.children := by
  cases placed with
  | root => cases up
  | child placed member =>
      rw [parent?_of_mem_children member] at up
      cases up
      exact ⟨placed, member⟩

section Preorder

variable {tree : Tree}

mutual

/-- What is below an element in its place is in its place. -/
theorem placed_of_mem_preorder {above : List Level} {start : Nat} : (element : Element) →
    (∀ node, .node node = Part.place above start element → node.Placed tree) →
    ∀ node, .node node ∈ element.preorder above start → node.Placed tree
  | .token _ _, _, _, member => Part.noConfusion (List.mem_singleton.mp member)
  | .node kind children, here, node, member => by
      have placed := here ⟨⟨kind, children⟩, start, above⟩ rfl
      rcases List.mem_cons.mp member with same | below
      · cases same
        exact placed
      · exact placed_of_mem_preorderList ⟨⟨kind, children⟩, start, above⟩ children
          (fun child member => placed.child (mem_children.mpr member)) node below

theorem placed_of_mem_preorderList (parent : Node) {index start : Nat} :
    (elements : List Element) →
    (∀ child, .node child ∈ parent.placeChildren index start elements → child.Placed tree) →
    ∀ node, .node node ∈
        Element.preorderList parent.tree parent.start parent.above index start elements →
      node.Placed tree
  | [], _, _, member => absurd member List.not_mem_nil
  | element :: elements, here, node, member => by
      rcases List.mem_append.mp member with inside | after
      · exact placed_of_mem_preorder element
          (fun child same => here child (List.mem_cons.mpr (.inl same))) node inside
      · exact placed_of_mem_preorderList parent elements
          (fun child member => here child (List.mem_cons_of_mem _ member)) node after

end

end Preorder

/-- A walk in preorder comes to nodes of the tree only. -/
theorem placed_of_mem_descendants {tree : Tree} {node : Node}
    (member : node ∈ tree.root.descendants) : node.Placed tree := by
  obtain ⟨part, listed, same⟩ := List.mem_filterMap.mp member
  cases part with
  | token leaf => cases same
  | node inner =>
      cases same
      refine placed_of_mem_preorder tree.element (fun root here => ?_) node listed
      cases here
      exact .root

/-! ### The end of a walk -/

theorem placeChildren_of_preorderList (node : Node) {index start : Nat} {elements : List Element}
    (nothing : (Element.preorderList node.tree node.start node.above index start
      elements).filterMap Part.node? = []) :
    (node.placeChildren index start elements).filterMap Part.node? = [] := by
  induction elements generalizing index start with
  | nil => rfl
  | cons element elements ih =>
      rw [Element.preorderList, List.filterMap_append, List.append_eq_nil_iff] at nothing
      cases element with
      | token kind text => exact ih nothing.2
      | node kind children => exact absurd nothing.1 (List.cons_ne_nil _ _)

mutual

theorem children_of_getLast?_preorder (above : List Level) (start : Nat) :
    (element : Element) → ∀ last,
    ((element.preorder above start).filterMap Part.node?).getLast? = some last →
      last.children = []
  | .token _ _, last, ends => nomatch ends
  | .node kind children, last, ends => by
      have below := children_of_getLast?_preorderList ⟨⟨kind, children⟩, start, above⟩ 0 start
        children
      change (Node.mk ⟨kind, children⟩ start above ::
        (Element.preorderList ⟨kind, children⟩ start above 0 start children).filterMap
          Part.node?).getLast? = some last at ends
      -- Either the walk ends below the node, or there is no node below it.
      rw [List.getLast?_cons] at ends
      cases inner : ((Element.preorderList ⟨kind, children⟩ start above 0 start
          children).filterMap Part.node?).getLast? with
      | none =>
          rw [inner] at ends
          cases ends
          exact placeChildren_of_preorderList ⟨⟨kind, children⟩, start, above⟩
            (List.getLast?_eq_none_iff.mp inner)
      | some deepest =>
          rw [inner] at ends
          cases ends
          exact below _ inner

theorem children_of_getLast?_preorderList (parent : Node) (index start : Nat) :
    (elements : List Element) → ∀ last,
    ((Element.preorderList parent.tree parent.start parent.above index start
      elements).filterMap Part.node?).getLast? = some last → last.children = []
  | [], last, ends => nomatch ends
  | element :: elements, last, ends => by
      rw [Element.preorderList, List.filterMap_append, List.getLast?_append] at ends
      cases later : ((Element.preorderList parent.tree parent.start parent.above (index + 1)
          (start + element.width) elements).filterMap Part.node?).getLast? with
      | none =>
          rw [later] at ends
          exact children_of_getLast?_preorder _ _ element last ends
      | some deepest =>
          rw [later] at ends
          cases ends
          exact children_of_getLast?_preorderList parent _ _ elements _ later

end

/-- A walk in preorder ends with a node that has no child nodes. -/
theorem descendants_eq_append (node : Node) :
    ∃ before last, node.descendants = before ++ [last] ∧ last.children = [] := by
  obtain ⟨before, last, split⟩ := (List.eq_nil_or_concat node.descendants).resolve_left
    (List.cons_ne_nil _ _)
  rw [List.concat_eq_append] at split
  have ends : node.descendants.getLast? = some last := by
    rw [split, List.getLast?_concat]
  exact ⟨before, last, split,
    children_of_getLast?_preorder _ _ node.tree.element last ends⟩

/-! ### Positions among the children -/

/-- The child nodes of a kind from the child with an index and an offset on. -/
def viewsFrom (node : Node) (kind : NodeKind) (index start : Nat) (elements : List Element) :
    List (View kind) :=
  ((node.placeChildren index start elements).filterMap Part.node?).filterMap (·.as? kind)

theorem viewsFrom_of_kind (node : Node) {kind : NodeKind} (index start : Nat) {element : Element}
    (elements : List Element) (matching : element.kind = .node kind) :
    ∃ view : View kind, view.node.path = index :: node.path ∧
      node.viewsFrom kind index start (element :: elements) =
        view :: node.viewsFrom kind (index + 1) (start + element.width) elements := by
  cases element with
  | token kind text => exact nomatch matching
  | node inner children =>
      cases matching
      refine ⟨⟨⟨⟨kind, children⟩, start, ⟨node.tree, node.start, index⟩ :: node.above⟩, rfl⟩,
        rfl, ?_⟩
      exact List.filterMap_cons_some (dif_pos rfl)

theorem viewsFrom_of_other (node : Node) {kind : NodeKind} (index start : Nat) {element : Element}
    (elements : List Element) (other : element.kind ≠ .node kind) :
    node.viewsFrom kind index start (element :: elements) =
      node.viewsFrom kind (index + 1) (start + element.width) elements := by
  cases element with
  | token kind text => rfl
  | node inner children =>
      exact List.filterMap_cons_none (dif_neg fun same => other (congrArg Kind.node same))

/-- A child node is behind as many child nodes of its kind as stand before it. -/
theorem exists_getElem?_viewsFrom (node : Node) {kind : NodeKind} {index start offset : Nat}
    {elements : List Element} {child : Element} (found : elements[offset]? = some child)
    (matching : child.kind = .node kind) :
    ∃ view, (node.viewsFrom kind index start elements)[(elements.take offset).countP
        (·.kind = .node kind)]? = some view ∧ view.node.path = (index + offset) :: node.path := by
  induction elements generalizing index start offset with
  | nil => exact nomatch found
  | cons element elements ih =>
      cases offset with
      | zero =>
          cases found
          obtain ⟨view, here, views⟩ := node.viewsFrom_of_kind index start elements matching
          rw [views]
          exact ⟨view, rfl, here⟩
      | succ offset =>
          obtain ⟨view, rest, path⟩ := @ih (index + 1) (start + element.width) offset found
          rw [Nat.add_right_comm, Nat.add_assoc] at path
          refine ⟨view, ?_, path⟩
          rw [List.take_succ_cons, List.countP_cons]
          by_cases same : element.kind = .node kind
          · obtain ⟨first, -, views⟩ := node.viewsFrom_of_kind index start elements same
            rw [views, if_pos (decide_eq_true same)]
            exact rest
          · rw [node.viewsFrom_of_other index start elements same,
              if_neg (same ∘ of_decide_eq_true)]
            exact rest

/-- The rank of a child node is its place among the child nodes of its kind. -/
theorem exists_getElem?_rank {parent : Node} {kind : NodeKind} {child : View kind}
    (member : child.node ∈ parent.children) :
    ∃ view, (parent.childrenAs kind)[child.node.rank]? = some view ∧
      view.node.path = child.node.path := by
  obtain ⟨index, found, above⟩ := place_of_mem_children member
  obtain ⟨view, there, path⟩ := @exists_getElem?_viewsFrom parent kind 0 parent.start index _ _
    found (congrArg Kind.node child.kind_eq)
  refine ⟨view, ?_, ?_⟩
  · rw [rank, above, child.kind_eq]
    exact there
  · have way : child.node.path = index :: parent.path := congrArg (List.map Level.index) above
    rw [path, way, Nat.zero_add]

end Node

end TreeLint
