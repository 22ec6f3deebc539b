import TreeLint.Proofs.Correspondence
import TreeLint.Proofs.Tree.Walk

/-!
# Trees up to trivia

A part of a tree is solid when it is no trivia. What an element is without the trivia below it is
its core. The names that are read off elements are those of their cores
(`TreeLint.Element.inferredName?_eraseTrivia`).

Two trees may be alike although trivia stand in different places. A likeness relates parts with
equal cores in such a way that the solid parts below related nodes are related again, one by one;
what else it says of related parts is left open. It passes on to whatever the accessors of nodes
find, which are all blind to trivia (`TreeLint.Likeness.childAs?`, `TreeLint.Likeness.name?`), and
to the nodes of a walk (`TreeLint.Likeness.descendants`).
-/

namespace TreeLint

/-! ### Elements without trivia -/

namespace Element

/-- What is chosen from elements without trivia, if trivia are never chosen. -/
theorem filterMap_eraseTriviaList {α : Type} {choose : Element → Option α}
    (blind : ∀ element : Element, element.isTrivia = true → choose element.eraseTrivia = none)
    (elements : List Element) : (eraseTriviaList elements).filterMap choose =
      elements.filterMap fun element : Element => choose element.eraseTrivia := by
  induction elements with
  | nil => rfl
  | cons element elements ih =>
      rw [eraseTriviaList, List.filterMap_cons]
      by_cases trivia : element.isTrivia = true
      · rw [if_pos trivia, blind element trivia, ih]
      · rw [if_neg trivia, List.filterMap_cons, ih]

/-- The text of an identifier. -/
def identifier? : Element → Option String
  | .token .identifier text => some text
  | _ => none

theorem identifierText?_eq (elements : List Element) :
    identifierText? elements = (elements.filterMap identifier?).head? := by
  rw [List.head?_filterMap, identifierText?]
  refine congrArg (List.findSome? · elements) (funext fun element => ?_)
  cases element with
  | token kind text => cases kind <;> rfl
  | node kind children => rfl

theorem identifier?_of_trivia (element : Element) (trivia : element.isTrivia = true) :
    identifier? element.eraseTrivia = none := by
  cases element with
  | token kind text =>
      cases kind with
      | identifier => exact Bool.noConfusion trivia
      | _ => rfl
  | node kind children => rfl

theorem identifierText?_eraseTriviaList (elements : List Element) :
    identifierText? (eraseTriviaList elements) = identifierText? elements := by
  rw [identifierText?_eq, identifierText?_eq, filterMap_eraseTriviaList identifier?_of_trivia]
  refine congrArg (fun choose => (elements.filterMap choose).head?) (funext fun element => ?_)
  cases element <;> rfl

theorem simpleName?_eraseTrivia (element : Element) :
    element.eraseTrivia.simpleName? = element.simpleName?.map eraseTriviaList := by
  cases element with
  | token kind text => rfl
  | node kind children => cases kind <;> rfl

theorem simpleName?_of_trivia (element : Element) (trivia : element.isTrivia = true) :
    element.eraseTrivia.simpleName? = none := by
  cases element with
  | token kind text => rfl
  | node kind children => exact Bool.noConfusion trivia

theorem simpleNames_eraseTriviaList (elements : List Element) :
    (eraseTriviaList elements).filterMap simpleName? =
      (elements.filterMap simpleName?).map eraseTriviaList := by
  rw [filterMap_eraseTriviaList simpleName?_of_trivia, List.map_filterMap]
  exact congrArg (List.filterMap · elements) (funext simpleName?_eraseTrivia)

theorem identifierText?_bind_map (name : Option (List Element)) :
    (name.map eraseTriviaList).bind identifierText? = name.bind identifierText? := by
  cases name with
  | none => rfl
  | some children => exact identifierText?_eraseTriviaList children

theorem isExpression_eraseTrivia (element : Element) :
    element.eraseTrivia.isExpression = element.isExpression := by
  cases element <;> rfl

theorem isExpression_of_trivia {element : Element} (trivia : element.isTrivia = true) :
    element.isExpression = false := by
  cases element with
  | token kind text => rfl
  | node kind children => exact Bool.noConfusion trivia

mutual

/-- The name that is taken over from an element does not depend on trivia. -/
theorem inferredName?_eraseTrivia :
    (element : Element) → element.eraseTrivia.inferredName? = element.inferredName?
  | .token _ _ => rfl
  | .node kind children => by
      rw [eraseTrivia]
      cases kind with
      | identifierName =>
          rw [inferredName?, inferredName?]
          exact identifierText?_eraseTriviaList children
      | memberAccessExpression =>
          rw [inferredName?, inferredName?, simpleNames_eraseTriviaList, List.getLast?_map]
          exact identifierText?_bind_map _
      | conditionalAccessExpression =>
          rw [inferredName?, inferredName?]
          exact inferredNameOfNth?_eraseTriviaList 1 children
      | memberBindingExpression =>
          rw [inferredName?, inferredName?, ← List.head?_filterMap, simpleNames_eraseTriviaList,
            List.head?_map, ← List.head?_filterMap]
          exact identifierText?_bind_map _
      | _ => rw [inferredName?, inferredName?] <;> nofun

theorem inferredNameOfNth?_eraseTriviaList (skipped : Nat) : (elements : List Element) →
    inferredNameOfNth? skipped (eraseTriviaList elements) = inferredNameOfNth? skipped elements
  | [] => rfl
  | element :: elements => by
      have others (skipped : Nat) := inferredNameOfNth?_eraseTriviaList skipped elements
      rw [eraseTriviaList]
      by_cases trivia : element.isTrivia = true
      · rw [if_pos trivia, others]
        cases skipped <;> rw [inferredNameOfNth?, isExpression_of_trivia trivia] <;> rfl
      · rw [if_neg trivia]
        cases skipped with
        | zero =>
            rw [inferredNameOfNth?, inferredNameOfNth?, isExpression_eraseTrivia, others,
              inferredName?_eraseTrivia element]
        | succ skipped =>
            rw [inferredNameOfNth?, inferredNameOfNth?, isExpression_eraseTrivia, others, others]

end

end Element

/-! ### Solid parts -/

namespace Part

/-- The element that stands in a place. -/
def element : Part → Element
  | .token leaf => .token leaf.kind leaf.text
  | .node inner => inner.tree.element

/-- A part without its place and without the trivia below it. -/
def core (part : Part) : Element :=
  part.element.eraseTrivia

theorem core_place (above : List Level) (start : Nat) (element : Element) :
    (Part.place above start element).core = element.eraseTrivia := by
  cases element <;> rfl

theorem isTrivia_place (above : List Level) (start : Nat) (element : Element) :
    (Part.place above start element).kind.isTrivia = element.isTrivia := by
  cases element <;> rfl

theorem kind_core (part : Part) : part.core.kind = part.kind := by
  cases part <;> rfl

/-- A part and everything below it in preorder, without trivia. -/
def solidPreorder (part : Part) : List Part :=
  part.preorder.filter (!·.kind.isTrivia)

theorem node?_of_trivia {part : Part} (trivia : part.kind.isTrivia = true) : part.node? = none := by
  cases part with
  | token leaf => rfl
  | node inner => exact Bool.noConfusion trivia

theorem solidPreorder_of_token {leaf : Token} (solid : (!leaf.kind.isTrivia) = true) :
    (Part.token leaf).solidPreorder = [.token leaf] :=
  List.filter_cons_of_pos solid

theorem solidPreorder_of_trivia {part : Part} (trivia : part.kind.isTrivia = true) :
    part.solidPreorder = [] := by
  cases part with
  | token leaf =>
      refine List.filter_eq_nil_iff.mpr fun other member => ?_
      rw [List.mem_singleton.mp member, trivia]
      exact Bool.false_ne_true
  | node inner => exact Bool.noConfusion trivia

/-- The nodes among parts are among the solid ones. -/
theorem filterMap_node?_solid (parts : List Part) :
    (parts.filter (!·.kind.isTrivia)).filterMap node? = parts.filterMap node? := by
  rw [List.filterMap_filter]
  refine congrArg (List.filterMap · parts) (funext fun part => ?_)
  cases trivia : part.kind.isTrivia with
  | true => exact (node?_of_trivia trivia).symm
  | false => rfl

/-- The first identifier among parts is the first one among the solid ones. -/
theorem find?_identifier_solid (parts : List Part) :
    ((parts.filter (!·.kind.isTrivia)).filterMap token?).find? (·.kind == .identifier) =
      (parts.filterMap token?).find? (·.kind == .identifier) := by
  rw [← List.head?_filter, ← List.head?_filter, List.filter_filterMap, List.filter_filterMap,
    List.filterMap_filter]
  refine congrArg (fun choose => (parts.filterMap choose).head?) (funext fun part => ?_)
  cases trivia : part.kind.isTrivia with
  | true =>
      cases part with
      | token leaf =>
          obtain ⟨kind, text, start, above⟩ := leaf
          cases kind with
          | identifier => exact Bool.noConfusion trivia
          | _ => rfl
      | node inner => exact Bool.noConfusion trivia
  | false => rfl

end Part

namespace Node

/-- The children of a node in place, without trivia. -/
def solidParts (node : Node) : List Part :=
  node.parts.filter (!·.kind.isTrivia)

theorem cores_placeChildren (node : Node) (index start : Nat) (elements : List Element) :
    ((node.placeChildren index start elements).filter (!·.kind.isTrivia)).map Part.core =
      Element.eraseTriviaList elements := by
  induction elements generalizing index start with
  | nil => rfl
  | cons element elements ih =>
      rw [placeChildren, Element.eraseTriviaList, List.filter_cons, Part.isTrivia_place]
      cases element.isTrivia with
      | true => exact ih _ _
      | false => exact congrArg₂ List.cons (Part.core_place _ start element) (ih _ _)

/-- The cores of the solid children are the children of the core. -/
theorem cores_solidParts (node : Node) :
    node.solidParts.map Part.core = Element.eraseTriviaList node.tree.children :=
  node.cores_placeChildren 0 node.start node.tree.children

theorem children_eq (node : Node) : node.children = node.solidParts.filterMap Part.node? :=
  (Part.filterMap_node?_solid node.parts).symm

theorem solidPreorder_eq (node : Node) : (Part.node node).solidPreorder =
    .node node :: node.solidParts.flatMap Part.solidPreorder := by
  have below (parts : List Part) : (parts.flatMap Part.preorder).filter (!·.kind.isTrivia) =
      (parts.filter (!·.kind.isTrivia)).flatMap Part.solidPreorder := by
    induction parts with
    | nil => rfl
    | cons part parts ih =>
        rw [List.flatMap_cons, List.filter_append, ih, List.filter_cons]
        cases trivia : part.kind.isTrivia with
        | true => exact congrArg (· ++ _) (Part.solidPreorder_of_trivia trivia)
        | false => rfl
  rw [Part.solidPreorder, Part.preorder, preorder_eq]
  exact congrArg (Part.node node :: ·) (below node.parts)

end Node

/-! ### Alike trees -/

/-- A relation between the parts of two trees by which related parts are the same up to trivia, and
so are the solid parts below related nodes, one by one. -/
structure Likeness where
  rel : Part → Part → Prop
  core : ∀ {first second : Part}, rel first second → second.core = first.core
  below : ∀ {first second : Node}, rel (.node first) (.node second) →
    List.Forall₂ rel first.solidParts second.solidParts

namespace Likeness

variable (alike : Likeness)

/-- The relation on nodes. -/
def nodes (first second : Node) : Prop :=
  alike.rel (.node first) (.node second)

/-- The relation on tokens. -/
def tokens (first second : Token) : Prop :=
  alike.rel (.token first) (.token second)

/-- The relation on the nodes of views. -/
def views {kind : NodeKind} (first second : View kind) : Prop :=
  alike.nodes first.node second.node

variable {alike}

theorem kind_eq {first second : Part} (like : alike.rel first second) :
    second.kind = first.kind := by
  rw [← second.kind_core, alike.core like, first.kind_core]

theorem node? {first second : Part} (like : alike.rel first second) :
    Option.Rel alike.nodes first.node? second.node? := by
  have kinds := kind_eq like
  cases first with
  | token leaf =>
      cases second with
      | token other => exact .none
      | node other => cases kinds
  | node inner =>
      cases second with
      | token other => cases kinds
      | node other => exact .some like

theorem token? {first second : Part} (like : alike.rel first second) :
    Option.Rel alike.tokens first.token? second.token? := by
  have kinds := kind_eq like
  cases first with
  | token leaf =>
      cases second with
      | token other => exact .some like
      | node other => cases kinds
  | node inner =>
      cases second with
      | token other => cases kinds
      | node other => exact .none

theorem text_eq {first second : Token} (like : alike.tokens first second) :
    second.text = first.text :=
  (Element.token.inj (alike.core like)).2

theorem identifier? {first second : List Part} (like : List.Forall₂ alike.rel first second) :
    Option.Rel alike.tokens ((first.filterMap Part.token?).find? (·.kind == .identifier))
      ((second.filterMap Part.token?).find? (·.kind == .identifier)) := by
  refine rel_find? (fun one other like => ?_)
    (List.rel_filterMap (fun _ _ like => token? like) like)
  have kinds : other.kind = one.kind := Kind.token.inj (kind_eq like)
  rw [kinds]

section Nodes

variable {first second : Node} (like : alike.nodes first second)

include like

theorem nodeKind_eq : second.kind = first.kind :=
  Kind.node.inj (kind_eq like)

theorem as? (kind : NodeKind) : Option.Rel alike.views (first.as? kind) (second.as? kind) :=
  Node.rel_as? kind (nodeKind_eq like) like

theorem children : List.Forall₂ alike.nodes first.children second.children := by
  rw [first.children_eq, second.children_eq]
  exact List.rel_filterMap (fun _ _ like => node? like) (alike.below like)

theorem childrenAs (kind : NodeKind) :
    List.Forall₂ alike.views (first.childrenAs kind) (second.childrenAs kind) :=
  List.rel_filterMap (fun one other (like : alike.nodes one other) => as? like kind) (children like)

theorem childAs? (kind : NodeKind) :
    Option.Rel alike.views (first.childAs? kind) (second.childAs? kind) :=
  rel_findSome? (fun one other (like : alike.nodes one other) => as? like kind) (children like)

theorem expressions : List.Forall₂ alike.nodes first.expressions second.expressions := by
  refine List.rel_filter (fun one other (like : alike.nodes one other) => ?_) (children like)
  change (_ = true) ↔ (_ = true)
  rw [nodeKind_eq like]

theorem inferredName?_eq : second.inferredName? = first.inferredName? := by
  rw [Node.inferredName?, ← Element.inferredName?_eraseTrivia]
  change (Part.node second).core.inferredName? = _
  rw [alike.core like]
  exact Element.inferredName?_eraseTrivia _

theorem identifierText?_eq : Element.identifierText? second.tree.children =
    Element.identifierText? first.tree.children := by
  rw [← Element.identifierText?_eraseTriviaList, (Element.node.inj (alike.core like)).2]
  exact Element.identifierText?_eraseTriviaList _

end Nodes

/-- Walks over alike nodes come to alike parts. -/
theorem solidPreorder {first second : Node} (like : alike.nodes first second) :
    List.Forall₂ alike.rel (Part.node first).solidPreorder (Part.node second).solidPreorder := by
  induction first using Node.inductionOn generalizing second with
  | step first below =>
      rw [first.solidPreorder_eq, second.solidPreorder_eq]
      refine .cons like (forall₂_flatMap (alike.below like) fun one member other like => ?_)
      -- A solid token is all there is to walk over, and the assumption applies to child nodes.
      have kinds := kind_eq like
      cases one with
      | token leaf =>
          cases other with
          | token leafToo =>
              have solid : (!leaf.kind.isTrivia) = true := (List.mem_filter.mp member).2
              have solidToo : (!leafToo.kind.isTrivia) = true := by
                rw [Kind.token.inj kinds]
                exact solid
              rw [Part.solidPreorder_of_token solid, Part.solidPreorder_of_token solidToo]
              exact .cons like .nil
          | node inner => cases kinds
      | node inner =>
          cases other with
          | token leaf => cases kinds
          | node other =>
              refine below inner ?_ like
              rw [first.children_eq]
              exact List.mem_filterMap.mpr ⟨.node inner, member, rfl⟩

theorem descendants {first second : Node} (like : alike.nodes first second) :
    List.Forall₂ alike.nodes first.descendants second.descendants := by
  have walked := List.rel_filterMap (fun _ _ like => node? like) (solidPreorder like)
  rw [Part.solidPreorder, Part.solidPreorder, Part.filterMap_node?_solid,
    Part.filterMap_node?_solid] at walked
  exact walked

/-! ### Names -/

theorem name? {first second : TupleElement} (like : alike.views first second) :
    Option.Rel alike.tokens (TupleElement.name? first) (TupleElement.name? second) :=
  identifier? (List.forall₂_drop 1 (alike.below like))

theorem labelName? {first second : NameColon} (like : alike.views first second) :
    Option.Rel alike.tokens (NameColon.name? first) (NameColon.name? second) := by
  have solid (label : NameColon) : NameColon.name? label =
      (((Part.node label.node).solidPreorder).filterMap Part.token?).find?
        (·.kind == .identifier) :=
    (Part.find?_identifier_solid label.node.preorder).symm
  rw [solid, solid]
  exact identifier? (solidPreorder like)

theorem expression? {first second : Argument} (like : alike.views first second) :
    Option.Rel alike.nodes first.expression? second.expression? :=
  rel_head? (expressions like)

/-- Alike attributes have the same name. -/
theorem attributeName?_eq {first second : Attribute} (like : alike.views first second) :
    Attribute.name? second = Attribute.name? first := by
  have same : Option.Rel Eq (Attribute.name? first) (Attribute.name? second) := by
    refine rel_findSome? (fun one other like => ?_) (childrenAs like .identifierName)
    rw [IdentifierName.text?, IdentifierName.text?, identifierText?_eq like]
    cases Element.identifierText? one.node.tree.children with
    | none => exact .none
    | some text => exact .some rfl
  exact eq_of_rel_eq same

end Likeness

/-! ### Likenesses of nodes -/

/-- Parts that are paired: tokens with the same kind and text, and nodes that are related. -/
inductive Part.Paired (related : Node → Node → Prop) : Part → Part → Prop where
  | token {leaf leafToo : Token} (kind : leafToo.kind = leaf.kind)
      (text : leafToo.text = leaf.text) : Paired related (.token leaf) (.token leafToo)
  | node {first second : Node} (like : related first second) :
      Paired related (.node first) (.node second)

/-- Parts whose cores are the same one by one are related if tokens with the same core are, and
nodes with the same core that have the same number among the nodes. -/
theorem Part.forall₂_of_cores {rel : Part → Part → Prop} {first second : List Part}
    (same : second.map core = first.map core)
    (tokens : ∀ one other : Token, (Part.token other).core = (Part.token one).core →
      rel (.token one) (.token other))
    (nodes : ∀ (position : Nat) (one other : Node),
      (first.filterMap node?)[position]? = some one →
      (second.filterMap node?)[position]? = some other →
      (Part.node other).core = (Part.node one).core → rel (.node one) (.node other)) :
    List.Forall₂ rel first second := by
  induction first generalizing second with
  | nil =>
      cases second with
      | nil => exact .nil
      | cons other others => cases same
  | cons one first ih =>
      cases second with
      | nil => cases same
      | cons other second =>
          obtain ⟨here, rest⟩ := List.cons.inj same
          have kinds : other.kind = one.kind := by
            rw [← other.kind_core, here, one.kind_core]
          cases one with
          | token leaf =>
              cases other with
              | token leafToo => exact .cons (tokens leaf leafToo here) (ih rest nodes)
              | node other => cases kinds
          | node one =>
              cases other with
              | token leaf => cases kinds
              | node other =>
                  refine .cons (nodes 0 one other rfl rfl here) (ih rest ?_)
                  exact fun position child childToo found foundToo =>
                    nodes (position + 1) child childToo found foundToo

/-- A likeness from a relation of nodes with the same core that passes on to the child nodes with
the same number and the same core. -/
def Likeness.ofNodes (related : Node → Node → Prop)
    (core : ∀ {first second : Node}, related first second →
      (Part.node second).core = (Part.node first).core)
    (child : ∀ {first second child childToo : Node} {position : Nat}, related first second →
      first.children[position]? = some child → second.children[position]? = some childToo →
      (Part.node childToo).core = (Part.node child).core → related child childToo) : Likeness where
  rel := Part.Paired related
  core := fun paired => by
    cases paired with
    | token kind text => exact congrArg₂ Element.token kind text
    | node like => exact core like
  below := fun {first second} paired => by
    cases paired with
    | node like =>
        have children := (Element.node.inj (core like)).2
        rw [← Node.cores_solidParts, ← Node.cores_solidParts] at children
        refine Part.forall₂_of_cores children (fun one other same => ?_) ?_
        · obtain ⟨kind, text⟩ := Element.token.inj same
          exact .token kind text
        · intro position one other found foundToo same
          rw [← Node.children_eq] at found foundToo
          exact .node (child like found foundToo same)

theorem Likeness.nodes_ofNodes {related : Node → Node → Prop} {first second : Node}
    {core : ∀ {first second : Node}, related first second →
      (Part.node second).core = (Part.node first).core}
    {child : ∀ {first second child childToo : Node} {position : Nat}, related first second →
      first.children[position]? = some child → second.children[position]? = some childToo →
      (Part.node childToo).core = (Part.node child).core → related child childToo} :
    (Likeness.ofNodes related core child).nodes first second ↔ related first second := by
  constructor
  · intro like
    cases like with
    | node like => exact like
  · exact .node

end TreeLint
