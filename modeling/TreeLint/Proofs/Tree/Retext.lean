import TreeLint.Proofs.Correspondence
import TreeLint.Proofs.Tree.Walk

/-!
# Trees with other texts

The tokens of a tree get other texts, which depend on their spans, while all kinds and the whole
structure stay. The parts of the new tree correspond to those of the old one, wherever these start
now (`TreeLint.Node.Revised.parts`, `TreeLint.Node.Revised.preorder`), and so do the parts that the
accessors of a node find (`TreeLint.Node.Revised.childrenAs`, `TreeLint.Node.Revised.childAs?`).
-/

namespace TreeLint

/-! ### Revised trees -/

namespace Element

mutual

/-- An element that starts at an offset, with the texts of its tokens revised. -/
def retext (revise : Span → String → String) (start : Nat) : Element → Element
  | .token kind text => .token kind (revise ⟨start, start + Text.width text.toList⟩ text)
  | .node kind children => .node kind (retextList revise start children)

/-- Elements of which the first one starts at an offset, with the texts of their tokens revised. -/
def retextList (revise : Span → String → String) : (start : Nat) → List Element → List Element
  | _, [] => []
  | start, element :: elements =>
      element.retext revise start :: retextList revise (start + element.width) elements

end

end Element

/-- A tree that starts at an offset, with the texts of its tokens revised. -/
def Tree.retext (tree : Tree) (revise : Span → String → String) (start : Nat) : Tree :=
  ⟨tree.kind, Element.retextList revise start tree.children⟩

variable {revise : Span → String → String}

/-- A token has the kind and the revised text of another one. -/
structure Token.Revised (revise : Span → String → String) (old new : Token) : Prop where
  kind : new.kind = old.kind
  text : new.text = revise old.span old.text

/-- A node has the tree of another one with revised texts. -/
def Node.Revised (revise : Span → String → String) (old new : Node) : Prop :=
  new.tree = old.tree.retext revise old.start

/-- A part is another one with revised texts. -/
inductive Part.Revised (revise : Span → String → String) : Part → Part → Prop where
  | token {old new : Token} (revised : old.Revised revise new) :
      Revised revise (.token old) (.token new)
  | node {old new : Node} (revised : old.Revised revise new) :
      Revised revise (.node old) (.node new)

namespace Part

theorem revised_place (above newAbove : List Level) (start newStart : Nat) (element : Element) :
    Revised revise (.place above start element)
      (.place newAbove newStart (element.retext revise start)) := by
  cases element with
  | token kind text => exact .token ⟨rfl, rfl⟩
  | node kind children => exact .node rfl

variable {old new : Part}

theorem Revised.kind_eq (revised : Revised revise old new) : new.kind = old.kind := by
  cases revised with
  | token revised => exact congrArg Kind.token revised.kind
  | node revised => exact congrArg (Kind.node ·.kind) revised

theorem Revised.node? (revised : Revised revise old new) :
    Option.Rel (Node.Revised revise) old.node? new.node? := by
  cases revised with
  | token revised => exact .none
  | node revised => exact .some revised

theorem Revised.token? (revised : Revised revise old new) :
    Option.Rel (Token.Revised revise) old.token? new.token? := by
  cases revised with
  | token revised => exact .some revised
  | node revised => exact .none

end Part

/-! ### Corresponding parts -/

mutual

theorem Element.revised_preorder (above newAbove : List Level) (start newStart : Nat) :
    (element : Element) → List.Forall₂ (Part.Revised revise) (element.preorder above start)
      ((element.retext revise start).preorder newAbove newStart)
  | .token _ _ => .cons (.token ⟨rfl, rfl⟩) .nil
  | .node kind children =>
      .cons (.node rfl) (revised_preorderList ⟨kind, children⟩ _ start newStart above newAbove 0 0
        start newStart children)

theorem Element.revised_preorderList (tree newTree : Tree) (treeStart newTreeStart : Nat)
    (above newAbove : List Level) (index newIndex start newStart : Nat) :
    (elements : List Element) → List.Forall₂ (Part.Revised revise)
      (Element.preorderList tree treeStart above index start elements)
      (Element.preorderList newTree newTreeStart newAbove newIndex newStart
        (Element.retextList revise start elements))
  | [] => .nil
  | element :: elements =>
      List.rel_append (element.revised_preorder _ _ start newStart)
        (revised_preorderList tree newTree treeStart newTreeStart above newAbove (index + 1)
          (newIndex + 1) _ _ elements)

end

namespace Node

theorem revised_placeChildren (old new : Node) (index newIndex start newStart : Nat)
    (elements : List Element) :
    List.Forall₂ (Part.Revised revise) (old.placeChildren index start elements)
      (new.placeChildren newIndex newStart (Element.retextList revise start elements)) := by
  induction elements generalizing index newIndex start newStart with
  | nil => exact .nil
  | cons element elements ih =>
      rw [placeChildren, Element.retextList, placeChildren]
      exact .cons (Part.revised_place _ _ start newStart element) (ih _ _ _ _)

namespace Revised

variable {old new : Node}

theorem kind_eq (revised : Revised revise old new) : new.kind = old.kind := by
  rw [Node.kind, revised]
  rfl

theorem parts (revised : Revised revise old new) :
    List.Forall₂ (Part.Revised revise) old.parts new.parts := by
  have elements : new.tree.children = Element.retextList revise old.start old.tree.children :=
    congrArg Tree.children revised
  rw [Node.parts, Node.parts, elements]
  exact revised_placeChildren old new 0 0 old.start new.start old.tree.children

theorem preorder (revised : Revised revise old new) :
    List.Forall₂ (Part.Revised revise) old.preorder new.preorder := by
  unfold Node.preorder
  rw [revised]
  exact old.tree.element.revised_preorder old.above new.above old.start new.start

theorem children (revised : Revised revise old new) :
    List.Forall₂ (Revised revise) old.children new.children :=
  List.rel_filterMap (fun _ _ revised => revised.node?) revised.parts

theorem descendants (revised : Revised revise old new) :
    List.Forall₂ (Revised revise) old.descendants new.descendants :=
  List.rel_filterMap (fun _ _ revised => revised.node?) revised.preorder

theorem tokens (revised : Revised revise old new) :
    List.Forall₂ (Token.Revised revise) old.tokens new.tokens :=
  List.rel_filterMap (fun _ _ revised => revised.token?) revised.preorder

theorem as? (revised : Revised revise old new) (kind : NodeKind) :
    Option.Rel (fun first second : View kind => Revised revise first.node second.node)
      (old.as? kind) (new.as? kind) := by
  unfold Node.as?
  by_cases same : old.kind = kind
  · rw [dif_pos same, dif_pos (revised.kind_eq.trans same)]
    exact .some revised
  · rw [dif_neg same, dif_neg fun also => same (revised.kind_eq.symm.trans also)]
    exact .none

theorem childrenAs (revised : Revised revise old new) (kind : NodeKind) :
    List.Forall₂ (fun first second : View kind => Revised revise first.node second.node)
      (old.childrenAs kind) (new.childrenAs kind) :=
  List.rel_filterMap (fun _ _ revised => revised.as? kind) revised.children

theorem childAs? (revised : Revised revise old new) (kind : NodeKind) :
    Option.Rel (fun first second : View kind => Revised revise first.node second.node)
      (old.childAs? kind) (new.childAs? kind) :=
  rel_findSome? (fun _ _ revised => revised.as? kind) revised.children

end Revised

end Node

/-! ### Names -/

theorem Token.rel_identifier {first second : List Token}
    (revised : List.Forall₂ (Token.Revised revise) first second) :
    Option.Rel (Token.Revised revise) (first.find? (·.kind == .identifier))
      (second.find? (·.kind == .identifier)) := by
  refine rel_find? (fun old new revised => ?_) revised
  rw [revised.kind]

theorem TupleElement.name?_revised {old new : TupleElement}
    (revised : old.node.Revised revise new.node) :
    Option.Rel (Token.Revised revise) (TupleElement.name? old) (TupleElement.name? new) := by
  have solid : List.Forall₂ (Part.Revised revise)
      (old.node.parts.filter (!·.kind.isTrivia)) (new.node.parts.filter (!·.kind.isTrivia)) := by
    refine List.rel_filter (fun first second revised => ?_) revised.parts
    change (!first.kind.isTrivia) = true ↔ (!second.kind.isTrivia) = true
    rw [revised.kind_eq]
  exact Token.rel_identifier
    (List.rel_filterMap (fun _ _ revised => revised.token?) (List.forall₂_drop 1 solid))

theorem NameColon.name?_revised {old new : NameColon}
    (revised : old.node.Revised revise new.node) :
    Option.Rel (Token.Revised revise) (NameColon.name? old) (NameColon.name? new) :=
  Token.rel_identifier
    (List.rel_filterMap (fun _ _ revised => revised.token?) revised.preorder)

/-! ### The text of a revised tree -/

theorem Token.spelled_revised {first second : List Token}
    (revised : List.Forall₂ (Token.Revised revise) first second) :
    Token.spelled second = first.flatMap fun token => (revise token.span token.text).toList := by
  induction revised with
  | nil => rfl
  | cons here below ih => rw [spelled_cons, here.text, ih, List.flatMap_cons]

/-- A revised tree is spelled by the revised texts of the tokens. -/
theorem Tree.chars_retext (tree : Tree) (revise : Span → String → String) :
    (tree.retext revise 0).chars =
      tree.root.tokens.flatMap fun token => (revise token.span token.text).toList := by
  have revised : tree.root.Revised revise (tree.retext revise 0).root := rfl
  rw [← Token.spelled_revised revised.tokens, Node.spelled_tokens]
  rfl

end TreeLint
