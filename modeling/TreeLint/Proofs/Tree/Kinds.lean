import TreeLint.Proofs.Tree.Paths
import TreeLint.Proofs.Tree.Walk

/-!
# Nodes by their kinds

A walk over a node comes to nodes of the kinds that its element lists
(`TreeLint.Node.kinds_descendants`), so that a kind that is listed once is the kind of a single node
(`TreeLint.Tree.nodesOf_eq_singleton`). The child nodes of a kind are the elements of the kind, in
their order (`TreeLint.Node.elements_childrenAs`), and no two of them have the same way down
(`TreeLint.Node.nodup_paths_childrenAs`).
-/

namespace TreeLint

namespace Element

mutual

/-- The kinds of the nodes of an element, in preorder. -/
def nodeKinds : Element → List NodeKind
  | .token _ _ => []
  | .node kind children => kind :: nodeKindsOfList children

/-- The kinds of the nodes of a list of elements, in preorder. -/
def nodeKindsOfList : List Element → List NodeKind
  | [] => []
  | element :: elements => element.nodeKinds ++ nodeKindsOfList elements

end

theorem nodeKindsOfList_append (first second : List Element) :
    nodeKindsOfList (first ++ second) = nodeKindsOfList first ++ nodeKindsOfList second := by
  induction first with
  | nil => rfl
  | cons element first ih =>
      rw [List.cons_append, nodeKindsOfList, nodeKindsOfList, ih, List.append_assoc]

end Element

namespace Node

theorem kinds_placeChildren {node : Node} {index start : Nat} {elements : List Element}
    (below : ∀ child : Node, .node child ∈ node.placeChildren index start elements →
      child.descendants.map kind = child.tree.element.nodeKinds) :
    (((node.placeChildren index start elements).filterMap Part.node?).flatMap descendants).map
      kind = Element.nodeKindsOfList elements := by
  induction elements generalizing index start with
  | nil => rfl
  | cons element elements ih =>
      have rest := @ih (index + 1) (start + element.width)
        fun child member => below child (List.mem_cons_of_mem _ member)
      rw [placeChildren]
      cases element with
      | token kind text => exact rest
      | node kind children =>
          have first := below
            ⟨⟨kind, children⟩, start, ⟨node.tree, node.start, index⟩ :: node.above⟩
            List.mem_cons_self
          change (descendants _ ++ List.flatMap descendants _).map _ = _
          rw [List.map_append, first, rest]
          rfl

/-- The kinds of the nodes that a walk comes to. -/
theorem kinds_descendants (node : Node) :
    node.descendants.map kind = node.tree.element.nodeKinds := by
  induction node using inductionOn with
  | step node below =>
      have children : (node.children.flatMap descendants).map kind =
          Element.nodeKindsOfList node.tree.children :=
        kinds_placeChildren fun child member => below child (mem_children.mpr member)
      rw [descendants_eq, List.map_cons, children]
      rfl

/-- How many nodes of the kinds with a property there are. -/
theorem length_filter_descendants (node : Node) (holds : NodeKind → Bool) :
    (node.descendants.filter (holds ·.kind)).length = node.tree.element.nodeKinds.countP holds := by
  rw [← kinds_descendants, List.countP_map, List.countP_eq_length_filter]
  rfl

/-- A node of a kind with a property that only one listed kind has is the only one. -/
theorem filter_descendants_eq_singleton (node : Node) {single : Node} (holds : NodeKind → Bool)
    (below : single ∈ node.descendants) (here : holds single.kind = true)
    (once : node.tree.element.nodeKinds.countP holds = 1) :
    node.descendants.filter (holds ·.kind) = [single] := by
  rw [← length_filter_descendants] at once
  obtain ⟨only, same⟩ := List.length_eq_one_iff.mp once
  have listed : single ∈ node.descendants.filter (holds ·.kind) :=
    List.mem_filter.mpr ⟨below, here⟩
  rw [same] at listed
  rw [same, List.mem_singleton.mp listed]

end Node

namespace Tree

/-- The nodes of a kind in a tree, in preorder. -/
def nodesOf (tree : Tree) (kind : NodeKind) : List Node :=
  tree.root.descendants.filter (·.kind == kind)

variable {tree : Tree} {kind : NodeKind}

theorem nodesOf_eq_singleton {single : Node} (placed : single.Placed tree)
    (here : single.kind = kind) (once : tree.element.nodeKinds.count kind = 1) :
    tree.nodesOf kind = [single] :=
  tree.root.filter_descendants_eq_singleton (· == kind) placed.mem_descendants
    (beq_iff_eq.mpr here) once

theorem nodesOf_eq_nil (never : tree.element.nodeKinds.count kind = 0) : tree.nodesOf kind = [] :=
  List.eq_nil_of_length_eq_zero ((tree.root.length_filter_descendants (· == kind)).trans never)

end Tree

/-! ### Child nodes of a kind -/

namespace Node

theorem viewsFrom_node (node : Node) (kind : NodeKind) (index start : Nat)
    (children elements : List Element) :
    node.viewsFrom kind index start (.node kind children :: elements) =
      ⟨⟨⟨kind, children⟩, start, ⟨node.tree, node.start, index⟩ :: node.above⟩, rfl⟩ ::
        node.viewsFrom kind (index + 1) (start + (Element.node kind children).width) elements :=
  List.filterMap_cons_some (dif_pos rfl)

theorem elements_viewsFrom (node : Node) (kind : NodeKind) (index start : Nat)
    (elements : List Element) :
    (node.viewsFrom kind index start elements).map (·.node.tree.element) =
      elements.filter (·.kind = .node kind) := by
  induction elements generalizing index start with
  | nil => rfl
  | cons element elements ih =>
      rw [List.filter_cons]
      by_cases same : element.kind = .node kind
      · rw [if_pos (decide_eq_true same)]
        cases element with
        | token kind text => cases same
        | node other children =>
            cases same
            rw [viewsFrom_node, List.map_cons, ih]
            rfl
      · rw [viewsFrom_of_other node index start elements same, ih,
          if_neg (same ∘ of_decide_eq_true)]

/-- The child nodes of a kind are the elements of the kind. -/
theorem elements_childrenAs (node : Node) (kind : NodeKind) :
    (node.childrenAs kind).map (·.node.tree.element) =
      node.tree.children.filter (·.kind = .node kind) :=
  node.elements_viewsFrom kind 0 node.start node.tree.children

theorem element_childAs? (node : Node) (kind : NodeKind) :
    (node.childAs? kind).map (·.node.tree.element) =
      node.tree.children.find? (·.kind = .node kind) := by
  rw [← List.head?_filter, ← elements_childrenAs, List.head?_map, childrenAs, List.head?_filterMap]
  rfl

theorem nodes_childrenAs (node : Node) (kind : NodeKind) :
    (node.childrenAs kind).map (·.node) = node.children.filter (·.kind = kind) := by
  rw [childrenAs, List.map_filterMap, ← List.filterMap_eq_filter]
  refine congrArg (List.filterMap · node.children) (funext fun child => ?_)
  by_cases same : child.kind = kind
  · rw [as?_of_kind same, Option.guard, if_pos (decide_eq_true same)]
    rfl
  · rw [as?_of_other same, Option.guard, if_neg (same ∘ of_decide_eq_true)]
    rfl

theorem nodup_paths_childrenAs (node : Node) (kind : NodeKind) :
    ((node.childrenAs kind).map (·.node.path)).Nodup := by
  have paths : (node.childrenAs kind).map (·.node.path) =
      (node.children.filter (·.kind = kind)).map path := by
    rw [← nodes_childrenAs, List.map_map]
    rfl
  rw [paths]
  exact (node.nodup_paths_placeChildren 0 node.start node.tree.children).sublist
    (List.filter_sublist.map path)

end Node

end TreeLint
