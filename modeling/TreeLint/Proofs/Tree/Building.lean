import TreeLint.Proofs.Tree.Coverage
import TreeLint.Tree.Builder

/-!
# Building is lossless

The builder's row of elements and its stack of open nodes spell, at any time, the steps that it has
taken (`TreeLint.Builder.Spells`): what is in front of the first open node, the start of that node,
what came until the next one was opened, and so on. A step adds itself to what is spelled. So a tree
is complete exactly if the steps taken open and close one node, with everything else in between and
balanced, and then the tree spells the steps (`TreeLint.Builder.building_lossless`).
-/

namespace TreeLint

namespace Step

def isStart : Step → Bool
  | .start _ => true
  | .token _ _ | .finish => false

def isFinish : Step → Bool
  | .finish => true
  | .start _ | .token _ _ => false

/-- The text that a step adds. -/
def text : Step → String
  | .token _ text => text
  | .start _ | .finish => ""

/-- Steps that close every node that they open, and no other node. -/
structure Balanced (steps : List Step) : Prop where
  even : steps.countP isStart = steps.countP isFinish
  nested : ∀ front, front <+: steps → front.countP isFinish ≤ front.countP isStart

/-- Steps that open a node, do something balanced and close the node. -/
def SingleNode (steps : List Step) : Prop :=
  ∃ kind inner, steps = .start (.node kind) :: (inner ++ [.finish]) ∧ Balanced inner

namespace Balanced

theorem nil : Balanced [] where
  even := rfl
  nested := by
    intro front inside
    rw [List.prefix_nil.mp inside]
    exact Nat.le_refl 0

theorem token (kind : Kind) (text : String) : Balanced [.token kind text] where
  even := rfl
  nested := by
    intro front inside
    rcases List.prefix_concat_iff.mp (show front <+: [] ++ [_] from inside) with rfl | inside
    · exact Nat.le_refl 0
    · rw [List.prefix_nil.mp inside]
      exact Nat.le_refl 0

theorem append {first second : List Step} (former : Balanced first) (latter : Balanced second) :
    Balanced (first ++ second) where
  even := by
    rw [List.countP_append, List.countP_append, former.even, latter.even]
  nested := by
    intro front inside
    rcases List.prefix_or_prefix_of_prefix inside (List.prefix_append first second) with
      early | ⟨rest, rfl⟩
    · exact former.nested front early
    · have late := latter.nested rest ((List.prefix_append_right_inj first).mp inside)
      rw [List.countP_append, List.countP_append, former.even]
      exact Nat.add_le_add_left late _

theorem node (kind : Kind) {inner : List Step} (balanced : Balanced inner) :
    Balanced (.start kind :: (inner ++ [.finish])) where
  even := by
    rw [List.countP_cons_of_pos rfl, List.countP_cons_of_neg Bool.false_ne_true,
      List.countP_append, List.countP_append, balanced.even]
    rfl
  nested := by
    intro front inside
    rcases List.prefix_cons_iff.mp inside with rfl | ⟨rest, rfl, below⟩
    · exact Nat.le_refl 0
    · rw [List.countP_cons_of_neg Bool.false_ne_true, List.countP_cons_of_pos rfl]
      rcases List.prefix_concat_iff.mp below with rfl | early
      · rw [List.countP_append, List.countP_append, balanced.even]
        exact Nat.le_refl _
      · exact Nat.le_succ_of_le (balanced.nested rest early)

end Balanced

theorem SingleNode.even {steps : List Step} (single : SingleNode steps) :
    steps.countP isStart = steps.countP isFinish := by
  obtain ⟨kind, inner, rfl, balanced⟩ := single
  exact (balanced.node (.node kind)).even

end Step

/-! ### Spelling -/

namespace Element

mutual

theorem balanced_steps : (element : Element) → Step.Balanced element.steps
  | .token kind text => .token (.token kind) text
  | .node kind children => (balanced_stepsOfList children).node (.node kind)

theorem balanced_stepsOfList : (elements : List Element) → Step.Balanced (stepsOfList elements)
  | [] => .nil
  | element :: elements => (balanced_steps element).append (balanced_stepsOfList elements)

end

mutual

/-- The steps of an element add the characters that it spells. -/
theorem chars_steps : (element : Element) →
    element.steps.flatMap (·.text.toList) = element.chars
  | .token _ _ => List.append_nil _
  | .node _ children => by
      rw [steps, List.flatMap_cons, List.flatMap_append, chars_stepsOfList children, chars]
      exact List.append_nil _

theorem chars_stepsOfList : (elements : List Element) →
    (stepsOfList elements).flatMap (·.text.toList) = charsOfList elements
  | [] => rfl
  | element :: elements => by
      rw [stepsOfList, List.flatMap_append, chars_steps element, chars_stepsOfList elements,
        charsOfList]

end

theorem stepsOfList_concat (elements : List Element) (element : Element) :
    stepsOfList (elements ++ [element]) = stepsOfList elements ++ element.steps := by
  induction elements with
  | nil => exact List.append_nil _
  | cons first elements ih =>
      rw [List.cons_append, stepsOfList, ih, stepsOfList, List.append_assoc]

theorem stepsOfList_eq_nil {elements : List Element} (nothing : stepsOfList elements = []) :
    elements = [] := by
  cases elements with
  | nil => rfl
  | cons element elements =>
      cases element with
      | token kind text => cases nothing
      | node kind children => cases nothing

/-- Only a single node spells the steps of a single node. -/
theorem singleNode_stepsOfList_iff {elements : List Element} :
    Step.SingleNode (stepsOfList elements) ↔ ∃ kind children, elements = [.node kind children] := by
  constructor
  · rintro ⟨kind, inner, same, balanced⟩
    cases elements with
    | nil => cases same
    | cons element elements =>
        cases element with
        | token kind text => cases same
        | node kind children =>
            obtain ⟨-, closed⟩ := List.cons.inj same
            change (stepsOfList children ++ [.finish]) ++ stepsOfList elements =
              inner ++ [.finish] at closed
            rcases List.prefix_concat_iff.mp ⟨_, closed⟩ with whole | early
            · rw [whole] at closed
              have rest := stepsOfList_eq_nil (List.append_right_eq_self.mp closed)
              exact ⟨kind, children, congrArg _ rest⟩
            · -- The first node is closed inside of what should be balanced.
              have nested := balanced.nested _ early
              rw [List.countP_append, List.countP_append,
                (balanced_stepsOfList children).even] at nested
              exact absurd nested (Nat.not_succ_le_self _)
  · rintro ⟨kind, children, rfl⟩
    exact ⟨kind, stepsOfList children, List.append_nil _, balanced_stepsOfList children⟩

end Element

namespace Builder

theorem Row.toList_take (row : Array Element) (count : Nat) :
    (row.take count).toList = row.toList.take count := by
  change (row.extract 0 count).toList = _
  rw [Array.toList_extract, List.extract_eq_take_drop]
  rfl

theorem Row.toList_drop (row : Array Element) (count : Nat) :
    (row.drop count).toList = row.toList.drop count := by
  change (row.extract count row.size).toList = _
  rw [Array.toList_extract, List.extract_eq_take_drop]
  exact List.take_of_length_le (Nat.le_of_eq List.length_drop)

/-- What a row of elements and a stack of open nodes spell. -/
def spelling (pending : List Element) : List OpenNode → List Step
  | [] => Element.stepsOfList pending
  | opened :: openNodes =>
      spelling (pending.take opened.first) openNodes ++
        .start (.node opened.kind) :: Element.stepsOfList (pending.drop opened.first)

/-- Open nodes begin one behind the other, and not behind the end of the row. -/
def Nested (size : Nat) : List OpenNode → Prop
  | [] => True
  | opened :: openNodes => opened.first ≤ size ∧ Nested opened.first openNodes

theorem Nested.mono {size larger : Nat} {openNodes : List OpenNode} (nested : Nested size openNodes)
    (le : size ≤ larger) : Nested larger openNodes := by
  cases openNodes with
  | nil => trivial
  | cons opened openNodes => exact ⟨nested.1.trans le, nested.2⟩

theorem spelling_concat {pending : List Element} {openNodes : List OpenNode}
    (nested : Nested pending.length openNodes) (element : Element) :
    spelling (pending ++ [element]) openNodes = spelling pending openNodes ++ element.steps := by
  cases openNodes with
  | nil => exact Element.stepsOfList_concat pending element
  | cons opened openNodes =>
      rw [spelling, List.take_append_of_le_length nested.1, List.drop_append_of_le_length nested.1,
        Element.stepsOfList_concat, spelling, List.append_assoc]
      rfl

/-- Each open node is a start without a finish. -/
theorem countP_spelling (pending : List Element) (openNodes : List OpenNode) :
    (spelling pending openNodes).countP Step.isStart =
      (spelling pending openNodes).countP Step.isFinish + openNodes.length := by
  induction openNodes generalizing pending with
  | nil => exact (Element.balanced_stepsOfList pending).even
  | cons opened openNodes ih =>
      have balanced := Element.balanced_stepsOfList (pending.drop opened.first)
      rw [spelling, List.countP_append, List.countP_append, ih, List.countP_cons_of_pos rfl,
        List.countP_cons_of_neg Bool.false_ne_true, balanced.even, List.length_cons]
      omega

/-- A builder holds what steps have built. -/
structure Spells (builder : Builder) (steps : List Step) : Prop where
  spelling : spelling builder.pending.toList builder.openNodes = steps
  nested : Nested builder.pending.toList.length builder.openNodes
  depth : builder.depth = builder.openNodes.length

variable {builder next : Builder} {steps : List Step} {step : Step}

theorem spells_empty : empty.Spells [] where
  spelling := rfl
  nested := trivial
  depth := rfl

/-- Exactly the starts of tokens, the tokens of nodes and a finish without an open node are not
taken. -/
theorem take_eq_error_iff : (∃ error, builder.take step = .error error) ↔
    (∃ kind, step = .start (.token kind)) ∨ (∃ kind text, step = .token (.node kind) text) ∨
      step = .finish ∧ builder.openNodes = [] := by
  cases step with
  | start kind => cases kind <;> simp [take]
  | token kind text => cases kind <;> simp [take]
  | finish =>
      cases opened : builder.openNodes with
      | nil => simp [take, opened]
      | cons first openNodes => simp [take, opened]

/-- A step that is taken adds itself to what is spelled. -/
theorem Spells.take (spells : builder.Spells steps) (taken : builder.take step = .ok next) :
    next.Spells (steps ++ [step]) := by
  cases step with
  | start kind =>
      cases kind with
      | token kind => cases taken
      | node kind =>
          cases taken
          refine ⟨?_, ⟨Nat.le_refl _, spells.nested⟩, congrArg (· + 1) spells.depth⟩
          change Builder.spelling (builder.pending.toList.take builder.pending.toList.length) _ ++
            .start (.node kind) ::
              Element.stepsOfList (builder.pending.toList.drop builder.pending.toList.length) = _
          rw [List.take_length, List.drop_length, spells.spelling]
          rfl
  | token kind text =>
      cases kind with
      | node kind => cases taken
      | token kind =>
          cases taken
          refine ⟨?_, ?_, spells.depth⟩
          · rw [Array.toList_push, spelling_concat spells.nested, spells.spelling]
            rfl
          · rw [Array.toList_push, List.length_append]
            exact spells.nested.mono (Nat.le_add_right _ _)
  | finish =>
      obtain ⟨pending, openNodes, depth⟩ := builder
      cases openNodes with
      | nil => cases taken
      | cons opened openNodes =>
          cases taken
          obtain ⟨below, nested⟩ := spells.nested
          have kept : (pending.toList.take opened.first).length = opened.first :=
            List.length_take_of_le below
          have nestedRow : Nested (pending.toList.take opened.first).length openNodes := by
            rw [kept]
            exact nested
          refine ⟨?_, ?_, ?_⟩
          · rw [Array.toList_push, Row.toList_take, Row.toList_drop, spelling_concat nestedRow,
              ← spells.spelling]
            exact (List.append_assoc _ (Step.start (.node opened.kind) :: _) [Step.finish]).symm
          · rw [Array.toList_push, Row.toList_take, List.length_append]
            exact nestedRow.mono (Nat.le_add_right _ _)
          · exact congrArg (· - 1) spells.depth

/-- The steps among those given that a builder takes. -/
def taken (builder : Builder) : List Step → List Step
  | [] => []
  | step :: steps =>
      match builder.take step with
      | .ok next => step :: next.taken steps
      | .error _ => builder.taken steps

/-- The builder after steps of which some may have been skipped. -/
def ofSteps (steps : List Step) : Builder :=
  steps.foldl takeOrSkip empty

theorem spells_foldl {before : List Step} (spells : builder.Spells before) (steps : List Step) :
    (steps.foldl takeOrSkip builder).Spells (before ++ builder.taken steps) := by
  induction steps generalizing builder before with
  | nil =>
      rw [taken, List.append_nil]
      exact spells
  | cons step steps ih =>
      rw [List.foldl_cons, taken, takeOrSkip]
      cases result : builder.take step with
      | error error => exact ih spells
      | ok next =>
          rw [List.append_cons]
          exact ih (spells.take result)

theorem spells_ofSteps (steps : List Step) : (ofSteps steps).Spells (empty.taken steps) :=
  spells_foldl spells_empty steps

/-! ### Complete trees -/

theorem finish_eq_ok_iff {tree : Tree} : builder.finish = .ok tree ↔
    builder.depth = 0 ∧ builder.pending.toList = [tree.element] := by
  unfold finish
  split
  · next inside => exact iff_of_false nofun fun complete => inside complete.1
  · next outside =>
      rw [and_iff_right (Decidable.not_not.mp outside)]
      split
      · next kind children row =>
          rw [row]
          constructor
          · intro complete
            cases complete
            rfl
          · intro single
            cases tree
            cases single
            rfl
      · next several =>
          exact iff_of_false nofun fun single => several tree.kind tree.children single

theorem Spells.openNodes_of_depth (spells : builder.Spells steps) (outside : builder.depth = 0) :
    builder.openNodes = [] :=
  List.eq_nil_of_length_eq_zero (spells.depth.symm.trans outside)

/-- A complete tree spells the steps that were taken. -/
theorem Spells.steps_of_finish (spells : builder.Spells steps) {tree : Tree}
    (complete : builder.finish = .ok tree) : tree.steps = steps := by
  obtain ⟨outside, row⟩ := finish_eq_ok_iff.mp complete
  have spelled := spells.spelling
  rw [spells.openNodes_of_depth outside, row] at spelled
  exact (List.append_nil _).symm.trans spelled

/-- A tree is complete exactly if the steps that were taken are those of a single node. -/
theorem Spells.finish_iff (spells : builder.Spells steps) :
    (∃ tree, builder.finish = .ok tree) ↔ Step.SingleNode steps := by
  constructor
  · rintro ⟨tree, complete⟩
    rw [← spells.steps_of_finish complete]
    exact ⟨tree.kind, _, rfl, Element.balanced_stepsOfList tree.children⟩
  · intro single
    have counts := countP_spelling builder.pending.toList builder.openNodes
    rw [spells.spelling, single.even] at counts
    have closed : builder.openNodes = [] := List.eq_nil_of_length_eq_zero (by omega)
    have spelled := spells.spelling
    rw [closed] at spelled
    rw [← spelled] at single
    obtain ⟨kind, children, row⟩ := Element.singleNode_stepsOfList_iff.mp single
    have outside : builder.depth = 0 := by
      rw [spells.depth, closed]
      rfl
    exact ⟨⟨kind, children⟩, finish_eq_ok_iff.mpr ⟨outside, row⟩⟩

end Builder

/-! ### Parts of a complete tree -/

theorem Tree.text_eq_join (tree : Tree) : tree.text = String.join (tree.steps.map Step.text) := by
  have spelled := Element.chars_steps tree.element
  refine String.toList_inj.mp ?_
  rw [String.toList_join, List.flatMap_map, Tree.steps, spelled]
  exact String.toList_ofList

namespace Part

/-- Parts that cover what is between two offsets, one behind the other. -/
def Tile (start stop : Nat) : List Part → Prop
  | [] => start = stop
  | part :: parts => part.span.start = start ∧ Tile part.span.stop stop parts

theorem placed_of_mem_preorder {tree : Tree} {part : Part} (member : part ∈ tree.root.preorder) :
    part.Placed tree := by
  cases part with
  | token leaf => exact .token (List.mem_filterMap.mpr ⟨_, member, rfl⟩)
  | node inner =>
      exact .node (Node.placed_of_mem_descendants (List.mem_filterMap.mpr ⟨_, member, rfl⟩))

theorem span_place (above : List Level) (start : Nat) (element : Element) :
    (Part.place above start element).span = ⟨start, start + element.width⟩ := by
  cases element <;> rfl

end Part

namespace Node

theorem tile_placeChildren (node : Node) (index start : Nat) (elements : List Element) :
    Part.Tile start (start + Text.width (Element.charsOfList elements))
      (node.placeChildren index start elements) := by
  induction elements generalizing index start with
  | nil => rfl
  | cons element elements ih =>
      have rest := ih (index + 1) (start + element.width)
      rw [placeChildren, Part.Tile, Part.span_place, Element.charsOfList, Text.width_append,
        ← Nat.add_assoc]
      exact ⟨rfl, rest⟩

/-- The children of a node cover what the node covers. -/
theorem tile_parts (node : Node) : Part.Tile node.span.start node.span.stop node.parts :=
  node.tile_placeChildren 0 node.start node.tree.children

end Node

/-- Whatever steps a builder is given: it refuses starts of tokens, tokens of nodes and a finish
without an open node, and stays as it is then; its depth is the number of open nodes, which is that
of starts taken less that of finishes; a tree is complete exactly if the steps taken are those of a
single node; and it spells these steps then, its text joins their texts, every part of it is found
in the text at its span, and the children of each node cover the node. -/
theorem Builder.building_lossless (steps : List Step) :
    (∀ step, (∃ error, (ofSteps steps).take step = .error error) ↔
      (∃ kind, step = .start (.token kind)) ∨ (∃ kind text, step = .token (.node kind) text) ∨
        step = .finish ∧ (ofSteps steps).openNodes = []) ∧
    (∀ step error, (ofSteps steps).take step = .error error →
      ofSteps (steps ++ [step]) = ofSteps steps) ∧
    (ofSteps steps).depth = (ofSteps steps).openNodes.length ∧
    (empty.taken steps).countP Step.isStart =
      (empty.taken steps).countP Step.isFinish + (ofSteps steps).depth ∧
    ((∃ tree, (ofSteps steps).finish = .ok tree) ↔ Step.SingleNode (empty.taken steps)) ∧
    ∀ tree, (ofSteps steps).finish = .ok tree →
      tree.steps = empty.taken steps ∧
      tree.text = String.join ((empty.taken steps).map Step.text) ∧
      ∀ part ∈ tree.root.preorder,
        Text.slice? tree.text.toList part.span.start part.span.stop = some part.chars ∧
        ∀ node, part = .node node → Part.Tile node.span.start node.span.stop node.parts := by
  have spells := spells_ofSteps steps
  refine ⟨fun step => take_eq_error_iff, ?_, spells.depth, ?_, spells.finish_iff, ?_⟩
  · intro step error refused
    rw [ofSteps, List.foldl_concat]
    change takeOrSkip (ofSteps steps) step = _
    rw [takeOrSkip, refused]
  · rw [← spells.spelling, spells.depth]
    exact countP_spelling _ _
  · intro tree complete
    have spelled := spells.steps_of_finish complete
    refine ⟨spelled, ?_, ?_⟩
    · rw [← spelled]
      exact tree.text_eq_join
    · intro part member
      obtain ⟨before, after, whole, span⟩ := (Part.placed_of_mem_preorder member).covers
      refine ⟨?_, fun node _ => node.tile_parts⟩
      change Text.slice? (String.ofList tree.chars).toList _ _ = _
      rw [String.toList_ofList, whole, span]
      exact Text.slice?_append before part.chars after

end TreeLint
