import TreeLint.Proofs.Tree.Kinds
import TreeLint.Proofs.Tree.Shifting
import TreeLint.Tree.Snippet

/-!
# Lists with commas

In a snippet, the elements of a list stand between parentheses, with a comma and a blank between
each two of them. The list spells the texts of its elements joined by `, `
(`TreeLint.Snippet.chars_parenthesized`), its elements are all that it has apart from tokens
(`TreeLint.Snippet.filter_parenthesized`), and each of them stands behind those before it
(`TreeLint.Snippet.places_parenthesized`).
-/

namespace TreeLint

/-- Each item of a list with the items before it. -/
def inTurn {α : Type} : List α → List (List α × α)
  | [] => []
  | item :: items => ([], item) :: (inTurn items).map fun later => (item :: later.1, later.2)

theorem inTurn_cons {α : Type} (item : α) (items : List α) :
    inTurn (item :: items) =
      ([], item) :: (inTurn items).map fun later => (item :: later.1, later.2) := rfl

theorem inTurn_map {α β : Type} (f : α → β) (items : List α) :
    inTurn (items.map f) = (inTurn items).map fun entry => (entry.1.map f, f entry.2) := by
  induction items with
  | nil => rfl
  | cons item items ih =>
      rw [List.map_cons, inTurn_cons, ih, inTurn_cons, List.map_cons, List.map_map, List.map_map]
      rfl

/-- An item is in turn behind those that the list has before it. -/
theorem mem_inTurn_iff {α : Type} {items front : List α} {item : α} :
    (front, item) ∈ inTurn items ↔ ∃ back, items = front ++ item :: back := by
  induction items generalizing front with
  | nil =>
      refine ⟨fun member => absurd member List.not_mem_nil, fun ⟨back, split⟩ => ?_⟩
      exact absurd split.symm (List.append_ne_nil_of_right_ne_nil _ (List.cons_ne_nil _ _))
  | cons head items ih =>
      rw [inTurn_cons, List.mem_cons, List.mem_map]
      constructor
      · rintro (first | ⟨⟨front, item⟩, later, same⟩)
        · cases first
          exact ⟨items, rfl⟩
        · cases same
          obtain ⟨back, rfl⟩ := ih.mp later
          exact ⟨back, rfl⟩
      · rintro ⟨back, split⟩
        cases front with
        | nil =>
            cases split
            exact .inl rfl
        | cons first front =>
            obtain ⟨rfl, rest⟩ := List.cons.inj split
            exact .inr ⟨(front, item), ih.mpr ⟨back, rest⟩, rfl⟩

/-- Of two items in turn the one before is one of those that the other has before it. -/
theorem pairwise_inTurn {α : Type} (items : List α) :
    (inTurn items).Pairwise fun former latter =>
      ∃ between, latter.1 = former.1 ++ former.2 :: between := by
  induction items with
  | nil => exact .nil
  | cons item items ih =>
      rw [inTurn_cons, List.pairwise_cons, List.pairwise_map]
      constructor
      · intro latter member
        obtain ⟨later, -, rfl⟩ := List.mem_map.mp member
        exact ⟨later.1, rfl⟩
      · exact ih.imp fun ⟨between, same⟩ => ⟨between, congrArg (item :: ·) same⟩

namespace Snippet

open Element

/-- The characters that elements spell, each with a comma and a blank behind it. -/
def lead (elements : List Element) : List Char :=
  elements.flatMap fun element => element.chars ++ [',', ' ']

theorem lead_cons (element : Element) (elements : List Element) :
    lead (element :: elements) = element.chars ++ [',', ' '] ++ lead elements := rfl

theorem commaSeparated_cons_cons (element other : Element) (elements : List Element) :
    commaSeparated (element :: other :: elements) =
      element :: .token .comma "," :: blank :: commaSeparated (other :: elements) := rfl

theorem chars_commaSeparated (elements : List Element) :
    charsOfList (commaSeparated elements) = [',', ' '].intercalate (elements.map chars) := by
  induction elements with
  | nil => rfl
  | cons element elements ih =>
      cases elements with
      | nil =>
          rw [List.map_cons, List.map_nil, List.intercalate_singleton]
          exact List.append_nil element.chars
      | cons other elements =>
          have rest : (element :: other :: elements).map chars =
              element.chars :: other.chars :: elements.map chars := rfl
          rw [commaSeparated_cons_cons, charsOfList, charsOfList, charsOfList, ih, rest,
            List.intercalate_cons_cons, List.append_assoc]
          rfl

/-- An element stands behind those before it. -/
theorem exists_chars_commaSeparated (front : List Element) (element : Element)
    (back : List Element) : ∃ after, charsOfList (commaSeparated (front ++ element :: back)) =
      lead front ++ element.chars ++ after := by
  induction front with
  | nil =>
      cases back with
      | nil => exact ⟨[], rfl⟩
      | cons other back => exact ⟨_, rfl⟩
  | cons first front ih =>
      obtain ⟨after, rest⟩ := ih
      obtain ⟨other, others, same⟩ := List.exists_cons_of_ne_nil
        (List.append_ne_nil_of_right_ne_nil front (List.cons_ne_nil element back))
      rw [same] at rest
      refine ⟨after, ?_⟩
      rw [List.cons_append, same, commaSeparated_cons_cons, charsOfList, charsOfList, charsOfList,
        rest, lead_cons, List.append_assoc, List.append_assoc, List.append_assoc, List.append_assoc]
      rfl

/-- Whatever is chosen, if it is neither a comma nor a blank, is chosen from the elements. -/
theorem filter_commaSeparated {choose : Element → Bool} (comma : choose (.token .comma ",") = false)
    (blanks : choose blank = false) (elements : List Element) :
    (commaSeparated elements).filter choose = elements.filter choose := by
  have passed : ¬choose (.token .comma ",") = true := by rw [comma]; nofun
  have passedToo : ¬choose blank = true := by rw [blanks]; nofun
  induction elements with
  | nil => rfl
  | cons element elements ih =>
      cases elements with
      | nil => rfl
      | cons other elements =>
          rw [commaSeparated_cons_cons, List.filter_cons, List.filter_cons_of_neg passed,
            List.filter_cons_of_neg passedToo, ih, ← List.filter_cons]

theorem nodeKinds_commaSeparated (elements : List Element) :
    nodeKindsOfList (commaSeparated elements) = elements.flatMap nodeKinds := by
  induction elements with
  | nil => rfl
  | cons element elements ih =>
      cases elements with
      | nil => rfl
      | cons other elements =>
          rw [commaSeparated_cons_cons, nodeKindsOfList, nodeKindsOfList, nodeKindsOfList, ih,
            List.flatMap_cons]
          rfl

theorem places_commaSeparated (node : Node) {kind : NodeKind} {elements : List Element}
    (nodes : ∀ element ∈ elements, element.kind = .node kind) (index start : Nat) :
    (node.viewsFrom kind index start (commaSeparated elements)).map
        (fun view => (view.node.tree.element, view.node.start)) =
      (inTurn elements).map fun entry => (entry.2, start + Text.width (lead entry.1)) := by
  induction elements generalizing index start with
  | nil => rfl
  | cons element elements ih =>
      have rest := ih fun other member => nodes other (List.mem_cons_of_mem _ member)
      cases element with
      | token kind text => cases nodes _ List.mem_cons_self
      | node inner children =>
          cases nodes _ List.mem_cons_self
          cases elements with
          | nil => exact congrArg (List.map _) (node.viewsFrom_node kind index start children [])
          | cons other elements =>
              have comma : (Element.token .comma ",").kind ≠ .node kind := Kind.noConfusion
              have between : blank.kind ≠ .node kind := Kind.noConfusion
              rw [commaSeparated_cons_cons, Node.viewsFrom_node,
                Node.viewsFrom_of_other _ _ _ _ comma, Node.viewsFrom_of_other _ _ _ _ between,
                List.map_cons, rest, inTurn_cons (Element.node kind children), List.map_cons,
                List.map_map]
              refine congrArg (List.cons _) (List.map_congr_left fun later _ => ?_)
              refine congrArg (Prod.mk later.2) ?_
              have separator : Text.width [',', ' '] = 2 := rfl
              have first : (Element.token .comma ",").width = 1 := rfl
              have second : blank.width = 1 := rfl
              rw [lead_cons, Text.width_append, Text.width_append, separator, first, second,
                Element.width]
              omega

/-! ### Between parentheses -/

theorem chars_parenthesized (elements : List Element) :
    charsOfList (parenthesized elements) =
      '(' :: [',', ' '].intercalate (elements.map chars) ++ [')'] := by
  rw [parenthesized, charsOfList_append, charsOfList, chars_commaSeparated]
  rfl

theorem exists_chars_parenthesized (front : List Element) (element : Element)
    (back : List Element) : ∃ after, charsOfList (parenthesized (front ++ element :: back)) =
      '(' :: lead front ++ element.chars ++ after := by
  obtain ⟨after, inside⟩ := exists_chars_commaSeparated front element back
  refine ⟨after ++ [')'], ?_⟩
  rw [parenthesized, charsOfList_append, charsOfList, inside]
  change '(' :: ((lead front ++ element.chars ++ after) ++ [')']) = _
  rw [List.append_assoc (lead front ++ _)]
  rfl

/-- Whatever is chosen, if it is no token, is chosen from the elements. -/
theorem filter_parenthesized {choose : Element → Bool}
    (tokens : ∀ kind text, choose (.token kind text) = false) (elements : List Element) :
    (parenthesized elements).filter choose = elements.filter choose := by
  have opening : ¬choose (.token .leftParen "(") = true := by rw [tokens]; nofun
  have closing : ¬choose (.token .rightParen ")") = true := by rw [tokens]; nofun
  rw [parenthesized, List.filter_append, List.filter_cons_of_neg opening,
    List.filter_cons_of_neg closing, List.filter_nil, List.append_nil,
    filter_commaSeparated (tokens .comma ",") (tokens .whitespace " ")]

theorem nodeKinds_parenthesized (elements : List Element) :
    nodeKindsOfList (parenthesized elements) = elements.flatMap nodeKinds := by
  rw [parenthesized, nodeKindsOfList_append, nodeKindsOfList, nodeKinds_commaSeparated]
  exact List.append_nil _

theorem countP_parenthesized {holds : NodeKind → Bool} {elements : List Element}
    (nowhere : ∀ element ∈ elements, element.nodeKinds.countP holds = 0) :
    (nodeKindsOfList (parenthesized elements)).countP holds = 0 := by
  rw [nodeKinds_parenthesized, List.countP_eq_zero]
  intro kind member
  obtain ⟨element, listed, here⟩ := List.mem_flatMap.mp member
  exact List.countP_eq_zero.mp (nowhere element listed) kind here

theorem count_parenthesized {kind : NodeKind} {elements : List Element}
    (nowhere : ∀ element ∈ elements, element.nodeKinds.count kind = 0) :
    (nodeKindsOfList (parenthesized elements)).count kind = 0 :=
  countP_parenthesized nowhere

/-- The child nodes of a kind are the elements of a list between parentheses, if these all have the
kind. -/
theorem elements_childrenAs_parenthesized {node : Node} {kind : NodeKind} {elements : List Element}
    (listed : node.tree.children = parenthesized elements)
    (nodes : ∀ element ∈ elements, element.kind = .node kind) :
    (node.childrenAs kind).map (·.node.tree.element) = elements := by
  have tokens (other : TokenKind) (text : String) :
      decide ((Element.token other text).kind = .node kind) = false :=
    decide_eq_false Kind.noConfusion
  rw [Node.elements_childrenAs, listed, filter_parenthesized tokens, List.filter_eq_self]
  exact fun element member => decide_eq_true (nodes element member)

/-- The child nodes of a kind, if these are the elements of a list, with where they stand. -/
theorem places_parenthesized (node : Node) {kind : NodeKind} {elements : List Element}
    (nodes : ∀ element ∈ elements, element.kind = .node kind)
    (listed : node.tree.children = parenthesized elements) :
    (node.childrenAs kind).map (fun view => (view.node.tree.element, view.node.start)) =
      (inTurn elements).map fun entry =>
        (entry.2, node.start + 1 + Text.width (lead entry.1)) := by
  have opening : (Element.token .leftParen "(").kind ≠ .node kind := Kind.noConfusion
  have views : node.childrenAs kind =
      node.viewsFrom kind 1 (node.start + 1) (commaSeparated elements) := by
    change node.viewsFrom kind 0 node.start node.tree.children = _
    rw [listed, parenthesized, List.cons_append, Node.viewsFrom_of_other _ _ _ _ opening,
      Node.viewsFrom_append]
    exact List.append_nil _
  rw [views, places_commaSeparated node nodes]

end Snippet

end TreeLint
