import TreeLint.Proofs.Analysis.RemovalFindings
import TreeLint.Proofs.Rule.Failures
import TreeLint.Proofs.Rule.Relocation
import TreeLint.Proofs.Symbols.History
import TreeLint.Proofs.Tree.Twins

/-!
# Trivia and findings

Blanks, line breaks and comments do not change what the built-in rules find, as long as they do not
change which arguments of a call are the same node (`TreeLint.Engine.outcome_of_trivia`). They do
not where the arguments have text (`TreeLint.Tree.tellsAlike_of_text`), but a blank between two
arguments without text tells them apart (`TreeLint.Repeated.not_forall_unlocated`). Trees that
differ in trivia have the same nodes in the same order; the rules see the same of paired nodes, and
with hosts that answer alike for these the list of an anonymous method can be removed in both trees
or in none (`TreeLint.Node.Twins.removable_eq`).
-/

namespace TreeLint

/-- A finding without its place. -/
def Finding.unlocated (finding : Finding) : Finding :=
  finding.relocated fun _ => .unknown

/-- A host answers for the nodes of another tree as a host does for the nodes of a tree that have
the same numbers in the walk over it, and both know the same symbols. -/
structure SemanticModel.AnswersAlike (model : SemanticModel) (tree : Tree)
    (modelToo : SemanticModel) (other : Tree) : Prop where
  methods : modelToo.method? = model.method?
  types : modelToo.type? = model.type?
  bindings : ∀ (index : Nat) (node nodeToo : Node), tree.root.descendants[index]? = some node →
    other.root.descendants[index]? = some nodeToo →
      modelToo.boundMethod? nodeToo = model.boundMethod? node

/-- Trees tell the arguments of their calls apart alike: two arguments of one call are the same node
exactly if their twins are. -/
def Tree.TellsAlike (tree other : Tree) : Prop :=
  ∀ list call : Node, list.parent? = some call → call.kind.callForm?.isSome = true →
    ∀ one ∈ list.arguments, ∀ two ∈ list.arguments, ∀ oneToo twoToo : Node,
      Node.Twins tree other one.node oneToo → Node.Twins tree other two.node twoToo →
        (one.node.Same two.node ↔ oneToo.Same twoToo)

namespace Node.Twins

open AnonymousMethodList

variable {tree other : Tree} {first second : Node}

theorem parent_eq {one two parent : Node} (former : Twins tree other first one)
    (latter : Twins tree other second two) (up : first.parent? = some parent)
    (upToo : second.parent? = some parent) : two.parent? = one.parent? := by
  obtain ⟨above, found, twins⟩ := former.parent up
  obtain ⟨aboveToo, foundToo, twinsToo⟩ := latter.parent upToo
  rw [found, foundToo, twins.unique twinsToo]

/-- Twin arguments have the same position. -/
theorem positionOf?_eq (tells : tree.TellsAlike other) {argument argumentToo : Argument}
    {list listToo call : Node} (place : ArgumentOf first argument list call)
    (placed : first.Placed tree) (arguments : Twins tree other argument.node argumentToo.node)
    (lists : Twins tree other list listToo) :
    listToo.positionOf? argumentToo = list.positionOf? argument := by
  have isCall := (isSome_callForm?_iff _).mpr place.isCall
  have listed := List.mem_of_getElem? (Node.getElem?_rank (place.member placed))
  refine findIdx?_eq_of_rel (Likeness.childrenAs (twins_iff.mpr lists) .argument) ?_
  intro one member oneToo like
  refine decide_eq_decide.mpr (Iff.symm ?_)
  exact tells list call place.called isCall one member argument listed _ _ (twins_iff.mp like)
    arguments

theorem upwards (tree other : Tree) : Upwards (Twins tree other) where
  kind_eq := fun twins => Likeness.nodeKind_eq (twins_iff.mpr twins)
  parent := fun twins => twins.parent

theorem upwards_flip (tree other : Tree) : Upwards (flip (Twins tree other)) where
  kind_eq := fun twins => (upwards other tree).kind_eq twins.symm
  parent := fun twins up =>
    have ⟨parent, found, above⟩ := twins.symm.parent up
    ⟨parent, found, above.symm⟩

/-- The list of an anonymous method can be removed exactly if that of its twin can be. -/
theorem removable_eq {context contextToo : Context}
    (same : other.element.eraseTrivia = tree.element.eraseTrivia)
    (alike : context.unit.model.AnswersAlike tree contextToo.unit.model other)
    (tells : tree.TellsAlike other) (twins : Twins tree other first second) :
    removable contextToo second = removable context first := by
  refine removable_eq_of_upwards (upwards tree other) (upwards_flip tree other) alike.methods
    alike.types twins.placed twins fun place arguments lists calls => ?_
  obtain ⟨index, found, foundToo⟩ := calls.exists_index same
  exact ⟨positionOf?_eq tells place twins.placed arguments lists,
    alike.bindings index _ _ found foundToo⟩

end Node.Twins

/-- Trees whose arguments have text tell them apart alike: no two of them are the same node. -/
theorem Tree.tellsAlike_of_text {tree other : Tree}
    (text : ∀ node ∈ tree.root.descendants, node.kind = .argument → node.text ≠ "")
    (textToo : ∀ node ∈ other.root.descendants, node.kind = .argument → node.text ≠ "") :
    tree.TellsAlike other := by
  intro list call _ _ one member two memberToo oneToo twoToo former latter
  have inside := Node.mem_children_of_childrenAs member
  have insideToo := Node.mem_children_of_childrenAs memberToo
  have kind : oneToo.kind = .argument :=
    (Likeness.nodeKind_eq (Node.twins_iff.mpr former)).trans one.kind_eq
  constructor
  · intro same
    have nodes := same.eq_of_text inside insideToo
      (text _ former.placed.mem_descendants one.kind_eq)
    rw [nodes] at latter
    rw [former.unique latter]
    exact .refl _
  · intro same
    obtain ⟨parent, up, -⟩ := former.parent (Node.parent?_of_mem_children inside)
    have upToo := former.parent_eq latter (Node.parent?_of_mem_children inside)
      (Node.parent?_of_mem_children insideToo)
    have nodes := same.eq_of_text (former.symm.placed.of_parent? up).2
      (latter.symm.placed.of_parent? (upToo.trans up)).2
      (textToo _ former.symm.placed.mem_descendants kind)
    rw [nodes] at latter
    rw [former.symm.unique latter.symm]
    exact .refl _

namespace Engine

variable {unit other : AnalysisUnit}

/-- Two units whose trees differ in trivia but tell arguments apart alike, and whose hosts answer
alike, have the same to report, in other places. -/
theorem complete_of_trivia (settings : Settings)
    (same : other.tree.element.eraseTrivia = unit.tree.element.eraseTrivia)
    (version : other.version = unit.version)
    (alike : unit.model.AnswersAlike unit.tree other.model other.tree)
    (tells : unit.tree.TellsAlike other.tree) :
    (complete settings other).map Finding.unlocated =
      (complete settings unit).map Finding.unlocated := by
  have agree : (unit.tree.twins other.tree).Agreement ⟨unit, settings⟩ ⟨other, settings⟩
      (fun _ => .unknown) (fun _ => .unknown) :=
    { settings := rfl
      version
      places := fun _ _ _ => rfl
      removable := fun _ _ like => (Node.twins_iff.mp like).removable_eq same alike tells }
  exact agree.walk (Likeness.descendants (Node.twins_iff.mpr (.root same)))

/-- **Trivia do not change what is found.** Two units have trees that become equal when the trivia
are erased from them, at any depth, and the same version; their hosts give the same answers, for
nodes that have the same number in the walks over the trees, and never raise the signal. The same
arguments of calls are the same node in both trees. Then the outcomes with a signal that was raised
from the start, or never is, have the same findings up to the places, and no failures. -/
theorem outcome_of_trivia (settings : Settings) (unit other : AnalysisUnit) (raised : Bool)
    (same : other.tree.element.eraseTrivia = unit.tree.element.eraseTrivia)
    (version : other.version = unit.version)
    (alike : unit.model.AnswersAlike unit.tree other.model other.tree)
    (tells : unit.tree.TellsAlike other.tree)
    (unraising : ∀ id, unit.model.raises id = false)
    (unraisingToo : ∀ id, other.model.raises id = false) :
    (((builtin settings).analyze other (.ofRaised raised)).1.findings.map
        Finding.unlocated).Perm
      (((builtin settings).analyze unit (.ofRaised raised)).1.findings.map
        Finding.unlocated) ∧
    ((builtin settings).analyze unit (.ofRaised raised)).1.failures = [] ∧
    ((builtin settings).analyze other (.ofRaised raised)).1.failures = [] := by
  refine ⟨?_, failures_builtin _ _ _, failures_builtin _ _ _⟩
  rw [findings_of_unraising unraising, findings_of_unraising unraisingToo]
  cases raised with
  | true => exact .refl _
  | false =>
      refine ((Finding.sorted_perm _).map _).trans ?_
      rw [complete_of_trivia settings same version alike tells]
      exact ((Finding.sorted_perm _).map _).symm

/-- A file with a call whose argument is an anonymous method; the trivia are given that stand in
front of the call, in its argument, and in the parameter list of the anonymous method. Every call is
bound to the only method. -/
def callWith (leading inArgument inList : List Element) : AnalysisUnit where
  path := "Call.cs"
  tree := ⟨.compilationUnit, leading ++ [
    .node .invocationExpression [.node .identifierName [.token .identifier "Run"],
      .node .argumentList [.token .leftParen "(",
        .node .argument (inArgument ++ [
          .node .anonymousMethodExpression [.token .delegateKeyword "delegate",
            .node .parameterList (.token .leftParen "(" :: inList ++ [.token .rightParen ")"]),
            .node .block [.token .leftBrace "\x7b", .token .rightBrace "\x7d"]]]),
        .token .rightParen ")"]]]⟩
  model :=
    { (BoundSymbols.ofSteps [.addType "Host" .classType, .addType "Action" .delegate,
        .addMethod ⟨0⟩ "Run" [("f", ⟨1⟩)]]).model with boundMethod? := fun _ => some ⟨0⟩ }
  version := .latest

/-- The list that can be removed is found behind a comment and with blanks around and in it. -/
theorem outcome_of_trivia_callWith :
    let spaced := callWith [.token .commentLine "// call", .token .newline "\n"]
      [.token .whitespace " "] [.token .whitespace "  "]
    (((builtin .default).analyze spaced .quiet).1.findings.map Finding.unlocated).Perm
      (((builtin .default).analyze (callWith [] [] []) .quiet).1.findings.map
        Finding.unlocated) ∧
    ((builtin .default).analyze spaced .quiet).1.findings.map (·.location.offset) = [21] := by
  intro spaced
  have alike : (callWith [] [] []).model.AnswersAlike (callWith [] [] []).tree spaced.model
      spaced.tree := ⟨rfl, rfl, fun _ _ _ _ _ => rfl⟩
  have tells : (callWith [] [] []).tree.TellsAlike spaced.tree :=
    Tree.tellsAlike_of_text (by decide) (by decide)
  exact ⟨(outcome_of_trivia .default (callWith [] [] []) spaced false rfl rfl alike tells
    (fun _ => rfl) (fun _ => rfl)).1, by decide⟩

end Engine

/-! ### A blank between arguments -/

namespace Repeated

/-- A blank between two arguments without text. -/
def blank : List Element :=
  [.token .whitespace " "]

theorem answersAlike :
    (unit []).model.AnswersAlike (unit []).tree (unit blank).model (unit blank).tree := by
  refine ⟨rfl, rfl, fun index node nodeToo found foundToo => ?_⟩
  have answers : (unit blank).tree.root.descendants.map (unit blank).model.boundMethod? =
      (unit []).tree.root.descendants.map (unit []).model.boundMethod? := by
    decide
  have here := congrArg (·[index]?) answers
  rw [List.getElem?_map, List.getElem?_map, found, foundToo] at here
  exact Option.some.inj here

/-- Without the blank the arguments are the same node, and two findings are reported; with the blank
they are not, and the second anonymous method is not reported. -/
theorem not_forall_unlocated : ¬ ∀ (settings : Settings) (unit other : AnalysisUnit)
    (raised : Bool), other.tree.element.eraseTrivia = unit.tree.element.eraseTrivia →
    other.version = unit.version →
    unit.model.AnswersAlike unit.tree other.model other.tree →
    (∀ id, unit.model.raises id = false) → (∀ id, other.model.raises id = false) →
    (((Engine.builtin settings).analyze other (.ofRaised raised)).1.findings.map
        Finding.unlocated).Perm
      (((Engine.builtin settings).analyze unit (.ofRaised raised)).1.findings.map
        Finding.unlocated) := by
  intro always
  have same := always .default (unit []) (unit blank) false rfl rfl answersAlike (fun _ => rfl)
    (fun _ => rfl)
  have lengths := same.length_eq
  rw [List.length_map, List.length_map] at lengths
  exact absurd lengths (by decide)

end Repeated

end TreeLint
