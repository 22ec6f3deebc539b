import Mathlib.Data.List.Forall2
import TreeLint.Proofs.Tree.Sameness

/-!
# Trees without some of their nodes

Elements of a tree are removed by their ways down, together with everything below them. Every node
of the new tree is what remains of one node of the old tree
(`TreeLint.Node.exists_remains_of_placed`, `TreeLint.Node.Remains.unique`). What remains of a node
is of its kind, stands below what remains of the node above it, and has the children that remain of
its own. Where no node of its kind is removed, it also keeps its rank
(`TreeLint.Node.Remains.rank_eq`). Shared child nodes that are the same node stay the same node, if
below both the same is removed (`TreeLint.Node.Remains.same`).
-/

namespace TreeLint

namespace Element

mutual

/-- The element at a way down, without what is below it at a way down that is listed. -/
def without (removed : List (List Nat)) (path : List Nat) : Element → Element
  | .token kind text => .token kind text
  | .node kind children => .node kind (withoutList removed path 0 children)

/-- Children of the node at a way down, from the child with an index on, without those at a way
down that is listed and without what is at such a way below the others. -/
def withoutList (removed : List (List Nat)) (path : List Nat) :
    (index : Nat) → List Element → List Element
  | _, [] => []
  | index, element :: elements =>
      if index :: path ∈ removed then withoutList removed path (index + 1) elements
      else
        element.without removed (index :: path) :: withoutList removed path (index + 1) elements

end

section Without

variable {removed : List (List Nat)}

mutual

/-- What is left of an element at two ways down is the same if below both the same is removed. -/
theorem without_congr {path other : List Nat}
    (alike : ∀ way ≠ [], way ++ path ∈ removed ↔ way ++ other ∈ removed) : (element : Element) →
    element.without removed path = element.without removed other
  | .token _ _ => rfl
  | .node kind children => congrArg (node kind) (withoutList_congr alike 0 children)

theorem withoutList_congr {path other : List Nat}
    (alike : ∀ way ≠ [], way ++ path ∈ removed ↔ way ++ other ∈ removed) (index : Nat) :
    (elements : List Element) →
    withoutList removed path index elements = withoutList removed other index elements
  | [] => rfl
  | element :: elements => by
      have rest := withoutList_congr alike (index + 1) elements
      have gone : index :: path ∈ removed ↔ index :: other ∈ removed :=
        alike [index] (List.cons_ne_nil _ _)
      have below (way : List Nat) (_ : way ≠ []) :
          way ++ index :: path ∈ removed ↔ way ++ index :: other ∈ removed := by
        rw [List.append_cons way index path, List.append_cons way index other]
        exact alike (way ++ [index]) (List.append_ne_nil_of_right_ne_nil _ (List.cons_ne_nil _ _))
      rw [withoutList, withoutList, rest, without_congr below element]
      exact if_congr gone rfl rfl

end

theorem length_withoutList_le (path : List Nat) (index : Nat) (elements : List Element) :
    (withoutList removed path index elements).length ≤ elements.length := by
  induction elements generalizing index with
  | nil => exact Nat.le_refl _
  | cons element elements ih =>
      rw [withoutList]
      split
      · exact Nat.le_succ_of_le (ih (index + 1))
      · exact Nat.succ_le_succ (ih (index + 1))

mutual

/-- What is left of a shared element is shared. -/
theorem isShared_without (path : List Nat) : (element : Element) →
    element.isShared = true → (element.without removed path).isShared = true
  | .token _ _, _ => rfl
  | .node kind children, shared => by
      rw [isShared, Bool.and_eq_true, decide_eq_true_eq] at shared
      rw [without, isShared, Bool.and_eq_true, decide_eq_true_eq]
      exact ⟨Nat.le_trans (length_withoutList_le path 0 children) shared.1,
        areShared_withoutList path 0 children shared.2⟩

theorem areShared_withoutList (path : List Nat) (index : Nat) : (elements : List Element) →
    areShared elements = true → areShared (withoutList removed path index elements) = true
  | [], _ => rfl
  | element :: elements, shared => by
      rw [areShared, Bool.and_eq_true] at shared
      have rest := areShared_withoutList path (index + 1) elements shared.2
      rw [withoutList]
      split
      · exact rest
      · rw [areShared, Bool.and_eq_true]
        exact ⟨isShared_without (index :: path) element shared.1, rest⟩

end

mutual

theorem width_without_le (path : List Nat) : (element : Element) →
    (element.without removed path).width ≤ element.width
  | .token _ _ => Nat.le_refl _
  | .node _ children => width_withoutList_le path 0 children

theorem width_withoutList_le (path : List Nat) (index : Nat) : (elements : List Element) →
    Text.width (charsOfList (withoutList removed path index elements)) ≤
      Text.width (charsOfList elements)
  | [] => Nat.le_refl _
  | element :: elements => by
      have rest := width_withoutList_le path (index + 1) elements
      rw [withoutList, charsOfList, Text.width_append]
      split
      · exact Nat.le_trans rest (Nat.le_add_left _ _)
      · rw [charsOfList, Text.width_append]
        exact Nat.add_le_add (width_without_le (index :: path) element) rest

end

end Without

end Element

/-- A tree without what is at the listed ways down. -/
def Tree.without (tree : Tree) (removed : List (List Nat)) : Tree :=
  ⟨tree.kind, Element.withoutList removed [] 0 tree.children⟩

namespace Node

/-- The child nodes that are not removed. -/
def keptChildren (node : Node) (removed : List (List Nat)) : List Node :=
  node.children.filter (·.path ∉ removed)

/-- What remains of the nodes of a tree: the new root remains of the old one, and the child nodes
of what remains of a node remain of its child nodes that are not removed, in their order. -/
inductive Remains (tree : Tree) (removed : List (List Nat)) : Node → Node → Prop where
  | root : Remains tree removed tree.root (tree.without removed).root
  | child {old new oldChild newChild : Node} {position : Nat}
      (above : Remains tree removed old new)
      (kept : (old.keptChildren removed)[position]? = some oldChild)
      (found : new.children[position]? = some newChild) : Remains tree removed oldChild newChild

variable {tree : Tree} {removed : List (List Nat)}

/-- A node has the tree of another one without what is removed below. -/
def Pruned (removed : List (List Nat)) (old new : Node) : Prop :=
  new.tree = ⟨old.kind, Element.withoutList removed old.path 0 old.tree.children⟩

theorem Pruned.kind {old new : Node} (pruned : Pruned removed old new) : new.kind = old.kind := by
  rw [Node.kind, pruned]

theorem filter_of_removed (node : Node) (gone : node.path ∈ removed) (nodes : List Node) :
    (node :: nodes).filter (·.path ∉ removed) = nodes.filter (·.path ∉ removed) :=
  List.filter_cons_of_neg fun spared => of_decide_eq_true spared gone

theorem filter_of_spared (node : Node) (spared : node.path ∉ removed) (nodes : List Node) :
    (node :: nodes).filter (·.path ∉ removed) = node :: nodes.filter (·.path ∉ removed) :=
  List.filter_cons_of_pos (decide_eq_true spared)

/-- From two starts on, what remains of a node is no further away than the node was. -/
structure Closer (start newStart : Nat) (old new : Node) : Prop where
  behind : newStart ≤ new.start
  near : new.start + start ≤ old.start + newStart

namespace Closer

variable {start newStart : Nat} {old new : Node}

theorem of_behind {width newWidth : Nat} (smaller : newWidth ≤ width)
    (closer : Closer (start + width) (newStart + newWidth) old new) :
    Closer start newStart old new where
  behind := Nat.le_of_add_right_le closer.behind
  near := by
    have near := closer.near
    omega

theorem trans {later newLater : Node} (former : Closer start newStart old new)
    (latter : Closer old.start new.start later newLater) :
    Closer start newStart later newLater where
  behind := Nat.le_trans former.behind latter.behind
  near := by
    have near := former.near
    have nearToo := latter.near
    omega

end Closer

/-- What remains of nodes that stand one behind the other, from two starts on. -/
inductive Remnants (removed : List (List Nat)) : (start newStart : Nat) →
    (old new : List Node) → Prop where
  | nil {start newStart : Nat} : Remnants removed start newStart [] []
  | cons {start newStart : Nat} {one oneToo : Node} {old new : List Node}
      (pruned : Pruned removed one oneToo) (closer : Closer start newStart one oneToo)
      (behind : Remnants removed one.start oneToo.start old new) :
      Remnants removed start newStart (one :: old) (oneToo :: new)

namespace Remnants

variable {start newStart : Nat} {old new : List Node}

theorem of_behind {width newWidth : Nat} (smaller : newWidth ≤ width)
    (remnants : Remnants removed (start + width) (newStart + newWidth) old new) :
    Remnants removed start newStart old new := by
  cases remnants with
  | nil => exact .nil
  | cons pruned closer behind => exact .cons pruned (closer.of_behind smaller) behind

theorem forall₂ (remnants : Remnants removed start newStart old new) :
    List.Forall₂ (Pruned removed) old new := by
  induction remnants with
  | nil => exact .nil
  | cons pruned closer behind ih => exact .cons pruned ih

theorem closer (remnants : Remnants removed start newStart old new) {position : Nat}
    {one oneToo : Node} (found : old[position]? = some one)
    (foundToo : new[position]? = some oneToo) : Closer start newStart one oneToo := by
  induction remnants generalizing position with
  | nil => exact nomatch found
  | cons pruned closer behind ih =>
      cases position with
      | zero =>
          cases found
          cases foundToo
          exact closer
      | succ position => exact closer.trans (ih found foundToo)

/-- Of two nodes, what remains of the latter is no further behind what remains of the former. -/
theorem closer_of_lt (remnants : Remnants removed start newStart old new) {first second : Nat}
    (order : first < second) {one oneToo two twoToo : Node} (found : old[first]? = some one)
    (foundToo : new[first]? = some oneToo) (later : old[second]? = some two)
    (laterToo : new[second]? = some twoToo) : Closer one.start oneToo.start two twoToo := by
  induction remnants generalizing first second with
  | nil => exact nomatch found
  | cons pruned closer behind ih =>
      cases second with
      | zero => exact absurd order (Nat.not_lt_zero first)
      | succ second =>
          cases first with
          | zero =>
              cases found
              cases foundToo
              exact behind.closer later laterToo
          | succ first => exact ih (Nat.lt_of_succ_lt_succ order) found foundToo later laterToo

end Remnants

theorem remnants_placeChildren (old new : Node) (index start newIndex newStart : Nat)
    (elements : List Element) :
    Remnants removed start newStart
      (((old.placeChildren index start elements).filterMap Part.node?).filter (·.path ∉ removed))
      ((new.placeChildren newIndex newStart
        (Element.withoutList removed old.path index elements)).filterMap Part.node?) := by
  induction elements generalizing index start newIndex newStart with
  | nil => exact .nil
  | cons element elements ih =>
      rw [placeChildren, Element.withoutList]
      by_cases gone : index :: old.path ∈ removed
      · have rest := ih (index + 1) (start + element.width) newIndex newStart
        rw [← Nat.add_zero newStart] at rest
        have rest := rest.of_behind (Nat.zero_le element.width)
        rw [if_pos gone]
        cases element with
        | token kind text => exact rest
        | node kind children =>
            change Remnants _ _ _ ((_ :: _).filter _) _
            rw [filter_of_removed ⟨⟨kind, children⟩, start, _ :: old.above⟩ gone]
            exact rest
      · have rest := ih (index + 1) (start + element.width) (newIndex + 1)
          (newStart + (element.without removed (index :: old.path)).width)
        have smaller : (element.without removed (index :: old.path)).width ≤ element.width :=
          Element.width_without_le (index :: old.path) element
        rw [if_neg gone, placeChildren]
        cases element with
        | token kind text => exact rest.of_behind smaller
        | node kind children =>
            change Remnants _ _ _ ((_ :: _).filter _) _
            rw [filter_of_spared ⟨⟨kind, children⟩, start, _ :: old.above⟩ gone]
            refine .cons rfl ⟨?_, ?_⟩ (rest.of_behind smaller)
            · exact Nat.le_refl newStart
            · exact Nat.le_of_eq (Nat.add_comm newStart start)

theorem Pruned.remnants {old new : Node} (pruned : Pruned removed old new) :
    Remnants removed old.start new.start (old.keptChildren removed) new.children := by
  have elements : new.tree.children = Element.withoutList removed old.path 0 old.tree.children := by
    rw [pruned]
  rw [Node.children, parts, elements]
  exact remnants_placeChildren old new 0 old.start 0 new.start old.tree.children

theorem Pruned.children {old new : Node} (pruned : Pruned removed old new) :
    List.Forall₂ (Pruned removed) (old.keptChildren removed) new.children :=
  pruned.remnants.forall₂

namespace Remains

theorem pruned {old new : Node} (remains : Remains tree removed old new) :
    Pruned removed old new := by
  induction remains with
  | root => rfl
  | child above kept found ih =>
      obtain ⟨here, rfl⟩ := List.getElem?_eq_some_iff.mp kept
      obtain ⟨there, rfl⟩ := List.getElem?_eq_some_iff.mp found
      exact (List.forall₂_iff_get.mp ih.children).2 _ here there

theorem kind_eq {old new : Node} (remains : Remains tree removed old new) : new.kind = old.kind :=
  remains.pruned.kind

theorem placed {old new : Node} (remains : Remains tree removed old new) :
    old.Placed tree ∧ new.Placed (tree.without removed) := by
  induction remains with
  | root => exact ⟨.root, .root⟩
  | child above kept found ih =>
      have member := (List.mem_filter.mp (List.mem_of_getElem? kept)).1
      exact ⟨ih.1.child member, ih.2.child (List.mem_of_getElem? found)⟩

/-- A child node of what remains of a node remains of a child node that is not removed. -/
theorem exists_of_child {old new newChild : Node} (remains : Remains tree removed old new)
    (member : newChild ∈ new.children) : ∃ oldChild ∈ old.children,
      oldChild.path ∉ removed ∧ Remains tree removed oldChild newChild := by
  obtain ⟨position, within, rfl⟩ := List.mem_iff_getElem.mp member
  have lengths := remains.pruned.children.length_eq
  have kept : (old.keptChildren removed)[position]? =
      some (old.keptChildren removed)[position] := List.getElem?_eq_getElem (lengths ▸ within)
  obtain ⟨child, spared⟩ := List.mem_filter.mp (List.mem_of_getElem? kept)
  exact ⟨_, child, of_decide_eq_true spared,
    remains.child kept (List.getElem?_eq_getElem within)⟩

theorem exists_child {old new oldChild : Node} (remains : Remains tree removed old new)
    (member : oldChild ∈ old.children) (spared : oldChild.path ∉ removed) :
    ∃ newChild ∈ new.children, Remains tree removed oldChild newChild := by
  have kept : oldChild ∈ old.keptChildren removed :=
    List.mem_filter.mpr ⟨member, decide_eq_true spared⟩
  obtain ⟨position, within, rfl⟩ := List.mem_iff_getElem.mp kept
  have lengths := remains.pruned.children.length_eq
  have found : new.children[position]? = some new.children[position] :=
    List.getElem?_eq_getElem (lengths ▸ within)
  exact ⟨_, List.mem_of_getElem? found, remains.child (List.getElem?_eq_getElem within) found⟩

/-- The node above what remains of a node remains of the node above. -/
theorem exists_parent {old new newParent : Node} (remains : Remains tree removed old new)
    (up : new.parent? = some newParent) :
    ∃ oldParent, old.parent? = some oldParent ∧ Remains tree removed oldParent newParent := by
  cases remains with
  | root => cases up
  | child above kept found =>
      have member := (List.mem_filter.mp (List.mem_of_getElem? kept)).1
      rw [parent?_of_mem_children (List.mem_of_getElem? found)] at up
      cases up
      exact ⟨_, parent?_of_mem_children member, above⟩

theorem parent {old new oldParent : Node} (remains : Remains tree removed old new)
    (up : old.parent? = some oldParent) :
    ∃ newParent, new.parent? = some newParent ∧ Remains tree removed oldParent newParent := by
  cases remains with
  | root => cases up
  | child above kept found =>
      have member := (List.mem_filter.mp (List.mem_of_getElem? kept)).1
      rw [parent?_of_mem_children member] at up
      cases up
      exact ⟨_, parent?_of_mem_children (List.mem_of_getElem? found), above⟩

/-- What remains of a node remains of no other node. -/
theorem unique {old other new : Node} (remains : Remains tree removed old new)
    (also : Remains tree removed other new) : other = old := by
  induction remains generalizing other with
  | root =>
      cases also with
      | root => rfl
      | child above kept found =>
          have up := parent?_of_mem_children (List.mem_of_getElem? found)
          cases up
  | child above kept found ih =>
      cases also with
      | root =>
          have up := parent?_of_mem_children (List.mem_of_getElem? found)
          cases up
      | child aboveToo keptToo foundToo =>
          have parents := (parent?_of_mem_children (List.mem_of_getElem? foundToo)).symm.trans
            (parent?_of_mem_children (List.mem_of_getElem? found))
          cases parents
          cases ih aboveToo
          obtain ⟨within, -⟩ := List.getElem?_eq_some_iff.mp found
          have positions := (List.getElem?_inj within (nodup_children _)).mp
            (found.trans foundToo.symm)
          rw [← positions, kept] at keptToo
          exact (Option.some.inj keptToo).symm

/-- What remains of a child node has the number among the child nodes that it has among those that
are not removed. -/
theorem exists_position {old new one oneToo : Node} (above : Remains tree removed old new)
    (remains : Remains tree removed one oneToo) (member : oneToo ∈ new.children) :
    ∃ position : Nat, (old.keptChildren removed)[position]? = some one ∧
      new.children[position]? = some oneToo := by
  have up := parent?_of_mem_children member
  cases remains with
  | root => cases up
  | child aboveToo kept found =>
      rw [parent?_of_mem_children (List.mem_of_getElem? found)] at up
      cases up
      cases above.unique aboveToo
      exact ⟨_, kept, found⟩

/-- What remains of child nodes that start at the same offset starts at the same offset. -/
theorem start_eq {old new one oneToo two twoToo : Node} (above : Remains tree removed old new)
    (former : Remains tree removed one oneToo) (latter : Remains tree removed two twoToo)
    (member : oneToo ∈ new.children) (memberToo : twoToo ∈ new.children)
    (same : two.start = one.start) : twoToo.start = oneToo.start := by
  obtain ⟨first, kept, found⟩ := above.exists_position former member
  obtain ⟨second, keptToo, foundToo⟩ := above.exists_position latter memberToo
  rcases Nat.lt_trichotomy first second with before | rfl | behind
  · obtain ⟨behind, near⟩ := above.pruned.remnants.closer_of_lt before kept found keptToo foundToo
    omega
  · cases found.symm.trans foundToo
    rfl
  · obtain ⟨behind, near⟩ := above.pruned.remnants.closer_of_lt behind keptToo foundToo kept found
    omega

/-- What remains of shared child nodes that are the same is the same, if below both the same is
removed. -/
theorem same {old new one oneToo two twoToo : Node} (above : Remains tree removed old new)
    (former : Remains tree removed one oneToo) (latter : Remains tree removed two twoToo)
    (member : oneToo ∈ new.children) (memberToo : twoToo ∈ new.children)
    (same : one.Same two) (shared : one.tree.isShared = true)
    (alike : ∀ way ≠ [], way ++ two.path ∈ removed ↔ way ++ one.path ∈ removed) :
    oneToo.Same twoToo where
  start := above.start_eq former latter member memberToo same.start
  tree := by
    rw [former.pruned, latter.pruned, same.kind_eq, same.tree,
      Element.withoutList_congr alike]
  stored := .inl (by
    rw [former.pruned]
    exact Element.isShared_without one.path one.tree.element shared)

end Remains

/-- Every node of the new tree is what remains of a node of the old one. -/
theorem exists_remains_of_placed {new : Node} (placed : new.Placed (tree.without removed)) :
    ∃ old, Remains tree removed old new := by
  induction placed with
  | root => exact ⟨tree.root, .root⟩
  | child placed member ih =>
      obtain ⟨old, remains⟩ := ih
      obtain ⟨oldChild, -, -, remains⟩ := remains.exists_of_child member
      exact ⟨oldChild, remains⟩

/-! ### Ranks -/

theorem exists_take_filter {α : Type} {keeps : α → Bool} {items : List α} {position : Nat}
    {item : α} (found : (items.filter keeps)[position]? = some item) :
    ∃ place : Nat, items[place]? = some item ∧
      (items.filter keeps).take position = (items.take place).filter keeps := by
  induction items generalizing position with
  | nil => exact nomatch found
  | cons head tail ih =>
      by_cases keep : keeps head = true
      · rw [List.filter_cons_of_pos keep] at found ⊢
        cases position with
        | zero => exact ⟨0, found, rfl⟩
        | succ position =>
            obtain ⟨place, there, taken⟩ := ih found
            refine ⟨place + 1, there, ?_⟩
            rw [List.take_succ_cons, List.take_succ_cons, List.filter_cons_of_pos keep, taken]
      · rw [List.filter_cons_of_neg keep] at found ⊢
        obtain ⟨place, there, taken⟩ := ih found
        refine ⟨place + 1, there, ?_⟩
        rw [List.take_succ_cons, List.filter_cons_of_neg keep, taken]

/-- No node of a kind is removed. -/
def Spares (tree : Tree) (removed : List (List Nat)) (kind : NodeKind) : Prop :=
  ∀ node : Node, node.Placed tree → node.kind = kind → node.path ∉ removed

theorem Pruned.countP_take {old new : Node} (pruned : Pruned removed old new) (position : Nat)
    (kind : NodeKind) : (new.children.take position).countP (·.kind = kind) =
      ((old.keptChildren removed).take position).countP (·.kind = kind) := by
  have kinds : List.Forall₂ (fun first second => first = second)
      ((old.keptChildren removed).map Node.kind) (new.children.map Node.kind) := by
    rw [List.forall₂_map_left_iff, List.forall₂_map_right_iff]
    exact pruned.children.imp fun _ _ pruned => pruned.kind.symm
  rw [List.forall₂_eq_eq_eq] at kinds
  have counted (nodes : List Node) : nodes.countP (·.kind = kind) =
      (nodes.map Node.kind).countP (· = kind) := by
    rw [List.countP_map]
    rfl
  rw [counted, counted, List.map_take, List.map_take, kinds]

/-- What remains of a node has its rank, if no node of its kind is removed. -/
theorem Remains.rank_eq {old new : Node} {kind : NodeKind} (remains : Remains tree removed old new)
    (same : old.kind = kind) (spares : Spares tree removed kind) : new.rank = old.rank := by
  have kinds := remains.kind_eq.trans same
  cases remains with
  | root => rfl
  | child above kept found =>
      obtain ⟨place, standing, taken⟩ := exists_take_filter kept
      rw [rank_of_getElem? found, rank_of_getElem? standing, kinds, same,
        above.pruned.countP_take]
      change (((_ : List Node).filter _).take _).countP _ = _
      rw [taken, List.countP_filter]
      refine List.countP_congr fun sibling member => ?_
      have beside := above.placed.1.child (List.mem_of_mem_take member)
      rw [Bool.and_eq_true, decide_eq_true_eq, decide_eq_true_eq]
      exact and_iff_left_of_imp fun same => spares sibling beside same

theorem Remains.childrenAs_eq_nil {old new : Node} {kind : NodeKind}
    (remains : Remains tree removed old new) (spares : Spares tree removed kind)
    (nothing : new.childrenAs kind = []) : old.childrenAs kind = [] := by
  unfold childrenAs at nothing ⊢
  rw [List.filterMap_eq_nil_iff] at nothing ⊢
  intro oldChild member
  refine dif_neg fun same => ?_
  have spared := spares oldChild (remains.placed.1.child member) same
  obtain ⟨newChild, found, remainder⟩ := remains.exists_child member spared
  have known : newChild.as? kind = some _ := dif_pos (remainder.kind_eq.trans same)
  rw [nothing newChild found] at known
  cases known

/-- If the first child of a kind of what remains is the remainder of a list without children of
another kind, so is the only child of the kind of the node itself. -/
theorem Remains.exists_list (remains : Remains tree removed old new) {kind inner : NodeKind}
    (spares : Spares tree removed inner) (single : (old.childrenAs kind).length ≤ 1)
    {list : View kind} (first : new.childAs? kind = some list)
    (nothing : list.node.childrenAs inner = []) :
    ∃ oldList : View kind, old.childAs? kind = some oldList ∧
      oldList.node.childrenAs inner = [] ∧ oldList.node.path ∉ removed := by
  obtain ⟨oldList, member, spared, remainder⟩ :=
    remains.exists_of_child (mem_children_of_childAs? first)
  have kinds := remainder.kind_eq.symm.trans list.kind_eq
  exact ⟨⟨oldList, kinds⟩, childAs?_of_single single member kinds,
    remainder.childrenAs_eq_nil spares nothing, spared⟩

end Node

end TreeLint
