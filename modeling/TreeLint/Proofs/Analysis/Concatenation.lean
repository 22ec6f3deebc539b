import TreeLint.Proofs.Rule.Relocation
import TreeLint.Proofs.Tree.Shifting

/-!
# Files one after the other

The built-in rules look at the declarations of a file one by one: when the elements of one file are
followed by those of another one, the findings are those of the first file and then those of the
second file where they stand now (`TreeLint.Engine.findings_append`).
-/

namespace TreeLint

/-- A location in a text as it is when the text has further characters in front. -/
def Location.moved (front : List Char) (location : Location) : Location :=
  { location with
    line := location.line + front.count '\n'
    column :=
      if location.line = 1 then location.column + (Text.lastLine front).length
      else location.column
    endLine := location.endLine.map (· + front.count '\n')
    endColumn :=
      if location.endLine = some 1 then
        location.endColumn.map (· + (Text.lastLine front).length)
      else location.endColumn
    offset := location.offset + Text.width front
    span := location.span.map fun span =>
      ⟨span.start + Text.width front, span.stop + Text.width front⟩ }

theorem Location.moved_nil : moved [] = id := by
  funext location
  obtain ⟨file, line, column, endLine, endColumn, offset, length, span⟩ := location
  have nothing : (Text.lastLine []).length = 0 := rfl
  simp only [moved, nothing, List.count_nil, Nat.add_zero, Text.width_nil, Option.map_id', ite_self]
  rfl

open Text in
/-- A span that is further back in a longer text is located where it is moved to. -/
theorem Context.location_moved {first second : Context} {front back middle : List Char}
    {span : Span} (path : second.unit.path = first.unit.path)
    (chars : second.unit.tree.chars = front ++ first.unit.tree.chars ++ back)
    (covers : Covers first.unit.tree.chars span middle) :
    second.location ⟨span.start + width front, span.stop + width front⟩ =
      (first.location span).moved front := by
  obtain ⟨before, after, split, rfl⟩ := covers
  have whole : second.unit.tree.chars = (front ++ before) ++ middle ++ (after ++ back) := by
    rw [chars, split]
    simp only [List.append_assoc]
  have here := second.location_of_covers whole
  rw [width_append, Position.behind_append, List.append_assoc, Position.behind_append,
    Nat.add_comm (width front), Nat.add_right_comm] at here
  rw [here, first.location_of_covers split, path]
  simp only [Location.moved, Position.moved, Option.map_some, Option.some.injEq, apply_ite some]

namespace Finding

/-- Where the findings of one rule at one offset stand when all findings are moved. -/
theorem isAt_moved (front : List Char) (offset : Nat) (ruleId : String) (finding : Finding) :
    isAt offset ruleId (finding.relocated (Location.moved front)) =
      (decide (Text.width front ≤ offset) &&
        isAt (offset - Text.width front) ruleId finding) := by
  have offsets : (finding.location.offset + Text.width front = offset) ↔
      Text.width front ≤ offset ∧ finding.location.offset = offset - Text.width front := by
    omega
  change (decide (finding.location.offset + Text.width front = offset) && _) = _
  rw [decide_eq_decide.mpr offsets, Bool.decide_and, Bool.and_assoc]
  rfl

/-- It makes no difference to how findings are listed whether parts of them, which may be moved, are
put in order before. -/
theorem sorted_append_moved (front : List Char) (first second : List Finding) :
    sorted (sorted first ++ (sorted second).map (·.relocated (Location.moved front))) =
      sorted (first ++ second.map (·.relocated (Location.moved front))) := by
  refine sorted_eq_of_filters fun offset ruleId => ?_
  rw [List.filter_append, List.filter_append, (sorted_lists first).stable, List.filter_map,
    List.filter_map]
  have moved : isAt offset ruleId ∘ (·.relocated (Location.moved front)) = fun finding =>
      decide (Text.width front ≤ offset) &&
        isAt (offset - Text.width front) ruleId finding :=
    funext (isAt_moved front offset ruleId)
  rw [moved]
  -- No finding is moved to an offset within the text in front.
  cases decide (Text.width front ≤ offset) with
  | true =>
      simp only [Bool.true_and]
      rw [(sorted_lists second).stable]
  | false => simp only [Bool.false_and, List.filter_false]

end Finding

/-! ### Hosts that know nothing -/

namespace AnonymousMethodList

/-- Where no call is bound, the lists of just those anonymous methods can be removed that are not
arguments of calls. -/
theorem allowed_iff_of_unbound {model : SemanticModel} {node : Node}
    (unbound : ∀ call, model.boundMethod? call = none) :
    Allowed model node ↔ ∀ argument list call, ¬ ArgumentOf node argument list call := by
  constructor
  · rintro (nowhere | ⟨argument, list, call, method, position, place, bound, -⟩)
    · exact nowhere
    · rw [unbound call] at bound
      cases bound
  · exact .inl

end AnonymousMethodList

namespace Node

/-- Two nodes are of one kind and stand below nodes of the same kinds. -/
structure SameKinds (first second : Node) : Prop where
  kind : second.kind = first.kind
  above : (Part.node second).kindsAbove = (Part.node first).kindsAbove

namespace SameKinds

variable {first second : Node}

theorem symm (same : SameKinds first second) : SameKinds second first :=
  ⟨same.kind.symm, same.above.symm⟩

theorem parent (same : SameKinds first second) {parent : Node}
    (up : first.parent? = some parent) :
    ∃ parentToo, second.parent? = some parentToo ∧ SameKinds parent parentToo := by
  obtain ⟨tree, start, above⟩ := first
  obtain ⟨treeToo, startToo, aboveToo⟩ := second
  have kinds := same.above
  cases above with
  | nil => cases up
  | cons level above =>
      cases up
      cases aboveToo with
      | nil => cases kinds
      | cons levelToo aboveToo =>
          obtain ⟨kind, kinds⟩ := List.cons.inj kinds
          exact ⟨_, rfl, kind, kinds⟩

theorem upwards : AnonymousMethodList.Upwards SameKinds where
  kind_eq := fun same => same.kind
  parent := fun same => same.parent

open AnonymousMethodList in
/-- Where no call is bound, the kinds above an anonymous method decide whether its list can be
removed. -/
theorem removable_eq {context contextToo : Context} {tree other : Tree}
    (same : SameKinds first second) (placed : first.Placed tree) (placedToo : second.Placed other)
    (unbound : ∀ call, context.unit.model.boundMethod? call = none)
    (unboundToo : ∀ call, contextToo.unit.model.boundMethod? call = none) :
    removable contextToo second = removable context first := by
  have lift {one two : Node} (same : SameKinds one two)
      (nowhere : ∀ argument list call, ¬ ArgumentOf two argument list call)
      (argument : Argument) (list call : Node) : ¬ ArgumentOf one argument list call := by
    intro place
    obtain ⟨argumentToo, listToo, callToo, placeToo, -, -⟩ := place.lift upwards same
    exact nowhere argumentToo listToo callToo placeToo
  rw [Bool.eq_iff_iff, removable_iff contextToo placedToo, removable_iff context placed,
    allowed_iff_of_unbound unbound, allowed_iff_of_unbound unboundToo]
  exact ⟨lift same, lift same.symm⟩

end SameKinds

end Node

/-! ### Files one after the other -/

/-- The tree of a file with a list of elements. -/
def Tree.file (elements : List Element) : Tree :=
  ⟨.compilationUnit, elements⟩

/-- A file with a list of elements, about whose meaning nothing is known. -/
def AnalysisUnit.file (path : String) (version : Version) (elements : List Element) :
    AnalysisUnit :=
  (withoutSemantics path (.file elements)).withVersion version

theorem Tree.chars_file (front elements back : List Element) :
    (file (front ++ elements ++ back)).chars =
      Element.charsOfList front ++ (file elements).chars ++ Element.charsOfList back := by
  rw [chars, file, Element.charsOfList_append, Element.charsOfList_append]
  rfl

namespace Engine

variable (settings : Settings) (path : String) (version : Version)

/-- The context of a file with a list of elements. -/
def contextOf (elements : List Element) : Context :=
  ⟨.file path version elements, settings⟩

/-- The rules see the elements of a file as they are when there are further elements in front of
them and behind them. -/
theorem agreement_shifted (front elements back : List Element) :
    (Tree.shifted (.file elements) (.file (front ++ elements ++ back))
        (Text.width (Element.charsOfList front))).Agreement
      (contextOf settings path version elements)
      (contextOf settings path version (front ++ elements ++ back))
      (Location.moved (Element.charsOfList front)) id where
  settings := rfl
  version := rfl
  places := fun one other related => by
    rw [related.shifted.span_eq]
    exact Context.location_moved rfl (Tree.chars_file front elements back) related.placed.covers
  removable := fun one other related =>
    Node.SameKinds.removable_eq
      ⟨Kind.node.inj related.shifted.kind_eq, related.shifted.kindsAbove⟩
      related.placed.node_placed related.placedToo.node_placed (fun _ => rfl) fun _ => rfl

/-- A file has findings about what is below its elements, and none about its root. -/
theorem complete_file (elements : List Element) :
    complete settings (.file path version elements) =
      ((Tree.file elements).root.children.flatMap Node.descendants).flatMap
        (Builtin.findings (contextOf settings path version elements)) := by
  change (Tree.file elements).root.descendants.flatMap _ = _
  rw [Node.descendants_eq, List.flatMap_cons]
  rfl

/-- What is found about elements that have others in front of them and behind them is what is found
about them alone, where they stand now. -/
theorem findings_amid (front elements back : List Element) {whole : List Element}
    (same : whole = front ++ elements ++ back) {index start : Nat}
    (behind : start = Text.width (Element.charsOfList front))
    (inside : ∀ part ∈ (Tree.file whole).root.placeChildren index start elements,
      part ∈ (Tree.file whole).root.parts) :
    ((((Tree.file whole).root.placeChildren index start elements).filterMap
        Part.node?).flatMap Node.descendants).flatMap
        (Builtin.findings (contextOf settings path version whole)) =
      (complete settings (.file path version elements)).map
        (·.relocated (Location.moved (Element.charsOfList front))) := by
  subst same
  subst behind
  have kind : (Tree.file (front ++ elements ++ back)).root.kind =
      (Tree.file elements).root.kind := rfl
  have shifted := Node.shifted_placeChildren kind rfl 0 index 0
    (Text.width (Element.charsOfList front)) elements
  rw [Nat.zero_add] at shifted
  have parts := Part.shiftedIn_of_placed shifted
    (fun part member => Part.placed_of_mem_parts .root member)
    fun part member => Part.placed_of_mem_parts .root (inside part member)
  have children : List.Forall₂ (Likeness.nodes (Tree.shifted (.file elements)
      (.file (front ++ elements ++ back)) (Text.width (Element.charsOfList front)))) _ _ :=
    List.rel_filterMap (fun _ _ like => Likeness.node? like) parts
  have found := (agreement_shifted settings path version front elements back).walk
    (forall₂_flatMap children fun _ _ _ like => Likeness.descendants like)
  rw [complete_file]
  refine Eq.trans ?_ found
  exact (List.map_id'' Finding.relocated_id _).symm

/-- What there is to find in a file whose elements are those of two files. -/
theorem complete_append (first second : List Element) :
    complete settings (.file path version (first ++ second)) =
      complete settings (.file path version first) ++
        (complete settings (.file path version second)).map
          (·.relocated (Location.moved (Element.charsOfList first))) := by
  have parts : (Tree.file (first ++ second)).root.parts = _ :=
    Node.placeChildren_append _ 0 0 first second
  have former := findings_amid settings path version [] first second
    (show first ++ second = [] ++ first ++ second from rfl)
    (show 0 = Text.width (Element.charsOfList []) from rfl) fun part member =>
      parts ▸ List.mem_append_left _ member
  have latter := findings_amid settings path version first second []
    (List.append_nil (first ++ second)).symm (Nat.zero_add _) fun part member =>
      parts ▸ List.mem_append_right _ member
  have unmoved : Location.moved (Element.charsOfList []) = id := Location.moved_nil
  rw [unmoved, List.map_id'' Finding.relocated_id] at former
  rw [complete_file, Node.children, parts, List.filterMap_append, List.flatMap_append,
    List.flatMap_append, former, latter]

/-- **Files one after the other.** Two files hold lists of elements and a third file holds the
elements of both. With a signal that was raised from the start, or never is, the findings of the
third file are those of the first file as they are and those of the second file with their
locations, also those of the suggestions, moved behind the text of the first file: offset and span
by its bytes, lines by its line feeds, and the columns of the first line by the characters of its
last line. They are listed as these two lists, one after the other, are put in order. -/
theorem findings_append (first second : List Element) (raised : Bool) :
    let findings (elements : List Element) : List Finding :=
      ((builtin settings).analyze (.file path version elements) (.ofRaised raised)).1.findings
    let moved := (findings second).map
      (·.relocated (Location.moved (Element.charsOfList first)))
    findings (first ++ second) = Finding.sorted (findings first ++ moved) ∧
      Finding.Lists (findings first ++ moved) (findings (first ++ second)) := by
  intro findings moved
  have listed (elements : List Element) : findings elements =
      if raised then [] else Finding.sorted (complete settings (.file path version elements)) :=
    findings_of_unraising (fun _ => rfl) raised
  have whole : findings (first ++ second) = Finding.sorted (findings first ++ moved) := by
    change _ = Finding.sorted (_ ++ (findings second).map _)
    rw [listed, listed, listed]
    cases raised with
    | true => rfl
    | false =>
        -- The parts have been sorted already, which makes no difference.
        have sorted := Finding.sorted_append_moved (Element.charsOfList first)
          (complete settings (.file path version first))
          (complete settings (.file path version second))
        rw [← complete_append] at sorted
        exact sorted.symm
  refine ⟨whole, ?_⟩
  rw [whole]
  exact Finding.sorted_lists _

end Engine

end TreeLint
