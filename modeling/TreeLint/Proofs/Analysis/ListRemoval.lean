import TreeLint.Proofs.Analysis.CopiedLists
import TreeLint.Proofs.Symbols.History
import TreeLint.Proofs.Tree.Pruning

/-!
# Removing the reported lists

When all reported lists are removed from a tree and the host answers for what remains of a call as
it did for the call, nothing is left for the rule about attributes to report, and nothing for the
rule about anonymous methods if the host did not tell copies of a call apart
(`TreeLint.Engine.removal_settles`). The parents, the ranks and the parameters and arguments of what
remains are what they were, because no node is removed but lists. The position of an argument is
that of the first argument that is the same node, and it stays if below copies the same is removed
(`TreeLint.AnonymousMethodList.firstSame_of_remains`). If the host lets the rule report a list below
one of two copies only, these are two nodes afterwards, and the second one has another position than
before (`TreeLint.ToldApart.not_forall_settles`).
-/

namespace TreeLint

/-! ### What the rules see of what remains -/

namespace Node.Remains

open AnonymousMethodList

variable {tree : Tree} {removed : List (List Nat)}

theorem upwards (tree : Tree) (removed : List (List Nat)) : Upwards (Remains tree removed) where
  kind_eq := fun remains => remains.kind_eq
  parent := fun remains => remains.parent

theorem upwards_flip (tree : Tree) (removed : List (List Nat)) :
    Upwards (flip (Remains tree removed)) where
  kind_eq := fun remains => remains.kind_eq.symm
  parent := fun remains => remains.exists_parent

/-- If no arguments are removed, what remains of an argument has its index. -/
theorem getElem?_arguments {old new : Node} (remains : Remains tree removed old new)
    (spares : Spares tree removed .argument) {index : Nat} {argument : Argument}
    (found : old.arguments[index]? = some argument) : ∃ argumentToo,
      new.arguments[index]? = some argumentToo ∧
        Remains tree removed argument.node argumentToo.node := by
  have member := mem_children_of_arguments found
  have spared := spares argument.node (remains.placed.1.child member) argument.kind_eq
  obtain ⟨child, inside, below⟩ := remains.exists_child member spared
  let remainder : Argument := ⟨child, below.kind_eq.trans argument.kind_eq⟩
  have ranked : new.arguments[child.rank]? = some remainder := @getElem?_rank new remainder inside
  rw [below.rank_eq argument.kind_eq spares, rank_of_arguments found] at ranked
  exact ⟨remainder, ranked, below⟩

/-- If no arguments are removed, the argument at an index remains of the one at this index. -/
theorem exists_of_arguments {old new : Node} (remains : Remains tree removed old new)
    (spares : Spares tree removed .argument) {index : Nat} {argument : Argument}
    (found : new.arguments[index]? = some argument) : ∃ oldArgument : Argument,
      old.arguments[index]? = some oldArgument ∧
        Remains tree removed oldArgument.node argument.node := by
  obtain ⟨child, inside, -, below⟩ := remains.exists_of_child (mem_children_of_arguments found)
  have kind := below.kind_eq.symm.trans argument.kind_eq
  have ranked : old.arguments[child.rank]? = some ⟨child, kind⟩ :=
    @getElem?_rank old ⟨child, kind⟩ inside
  rw [← below.rank_eq kind spares, rank_of_arguments found] at ranked
  exact ⟨⟨child, kind⟩, ranked, below⟩

end Node.Remains

namespace AnonymousMethodList

open Node

variable {tree : Tree} {removed : List (List Nat)} {old new : Node}

/-- A host answers for what remains of the calls of a tree as another one does for the calls. -/
structure SameAnswers (tree : Tree) (removed : List (List Nat)) (model other : SemanticModel) :
    Prop where
  methods : other.method? = model.method?
  types : other.type? = model.type?
  bindings : ∀ old new, Remains tree removed old new → new.kind.callForm?.isSome = true →
    other.boundMethod? new = model.boundMethod? old

/-- The first of the arguments that are the same as what remains of an argument is what remains of
the first of the arguments that are the same, if the same is removed below copies. -/
theorem firstSame_of_remains {oldList list : Node} {oldArgument argument : Argument}
    {position : Nat} (lists : Remains tree removed oldList list)
    (spares : Spares tree removed .argument) (alike : ListsAlike tree removed)
    (first : list.FirstSame argument position)
    (found : oldList.arguments[position]? = some oldArgument) :
    oldList.FirstSame oldArgument position where
  here := ⟨oldArgument, found, .refl _⟩
  alone := by
    intro index before oldOther there also
    obtain ⟨here, standing, same⟩ := first.here
    obtain ⟨argumentToo, standingToo, remains⟩ := lists.getElem?_arguments spares found
    cases standing.symm.trans standingToo
    obtain ⟨other, thereToo, otherRemains⟩ := lists.getElem?_arguments spares there
    have former := mem_children_of_arguments there
    have latter := mem_children_of_arguments found
    have apart : oldArgument.node.path ≠ oldOther.node.path := by
      intro paths
      have nodes := eq_of_path_children latter former paths
      rw [← rank_of_arguments there, ← rank_of_arguments found, nodes] at before
      exact absurd before (Nat.lt_irrefl _)
    have copies : Copies tree oldArgument.node oldOther.node :=
      .argument lists.placed.1 latter former also.symm
    have still := lists.same otherRemains remains (mem_children_of_arguments thereToo)
      (mem_children_of_arguments standing) also (also.stored.resolve_right apart)
      (alike _ _ copies)
    exact first.alone index before other thereToo (still.trans same)

/-- With the same answers, what the place of an anonymous method allows in the new tree, the place
of one that it remains of allowed already, or that of one which is the same now. -/
theorem SameAnswers.exists_allowed {model other : SemanticModel}
    (same : SameAnswers tree removed model other) (spares : Spares tree removed .argument)
    (alike : ListsAlike tree removed) (remains : Remains tree removed old new)
    (allowed : Allowed other new) :
    ∃ oldToo newToo, Remains tree removed oldToo newToo ∧ newToo.Same new ∧
      Allowed model oldToo := by
  rcases allowed with nowhere | ⟨argument, list, call, method, position, place, bound, counted,
    resolved⟩
  · refine ⟨old, new, remains, .refl new, .inl fun argument list call place => ?_⟩
    obtain ⟨newArgument, newList, newCall, placed, -⟩ :=
      place.lift (Remains.upwards tree removed) remains
    exact nowhere newArgument newList newCall placed
  · obtain ⟨_, oldList, oldCall, oldPlace, -, lists, calls⟩ :=
      place.lift (Remains.upwards_flip tree removed) remains
    have first := positionOf?_eq_some_iff.mp counted
    obtain ⟨here, found, like⟩ := first.here
    obtain ⟨oldHere, oldFound, arguments⟩ := lists.exists_of_arguments spares found
    -- The first argument that is the same has a child node that is the same as the new node.
    have below := (remains.placed.2.of_parent? place.under).2
    obtain ⟨newToo, member, child⟩ := exists_of_mem_right like.children below
    obtain ⟨oldToo, oldMember, -, remainsToo⟩ := arguments.exists_of_child member
    have placeToo : ArgumentOf oldToo oldHere oldList oldCall :=
      { oldPlace with
        under := parent?_of_mem_children oldMember
        listed := parent?_of_mem_children (mem_children_of_arguments oldFound) }
    have oldFirst := firstSame_of_remains lists spares alike first oldFound
    have isCall := (isSome_callForm?_iff _).mpr place.isCall
    rw [same.bindings oldCall call calls isCall] at bound
    rw [SemanticModel.resolve_silent, SemanticModel.verdict_eq_of_symbols same.methods same.types,
      ← SemanticModel.resolve_silent] at resolved
    exact ⟨oldToo, newToo, remainsToo, child.same, .inr ⟨oldHere, oldList, oldCall, method,
      position, placeToo, bound, positionOf?_eq_some_iff.mpr oldFirst, resolved⟩⟩

open Classical in
/-- There is such a host, because a node of the new tree remains of one node only. -/
theorem exists_sameAnswers (tree : Tree) (removed : List (List Nat)) (model : SemanticModel) :
    ∃ other, SameAnswers tree removed model other ∧ other.raises = model.raises := by
  let binding (new : Node) : Option MethodId :=
    if known : ∃ old, Remains tree removed old new then model.boundMethod? known.choose else none
  refine ⟨{ model with boundMethod? := binding }, ⟨rfl, rfl, fun old new remains _ => ?_⟩, rfl⟩
  have known : ∃ old, Remains tree removed old new := ⟨old, remains⟩
  change (if known : _ then _ else _) = _
  rw [dif_pos known, remains.unique known.choose_spec]

end AnonymousMethodList

namespace Engine

open Node AnonymousMethodList

variable {settings : Settings} {unit : AnalysisUnit} {model : SemanticModel}

/-- The unit without the reported lists, with a host that knows the new tree. -/
def withoutReported (settings : Settings) (unit : AnalysisUnit) (model : SemanticModel) :
    AnalysisUnit :=
  { unit with tree := unit.tree.without (reportedPaths settings unit), model }

theorem spares_reportedPaths (kind : NodeKind) (noParameters : kind ≠ .parameterList)
    (noArguments : kind ≠ .attributeArgumentList) :
    Spares unit.tree (reportedPaths settings unit) kind := by
  intro node placed same listed
  have kinds := kind_of_mem_reportedPaths placed listed
  rw [same] at kinds
  exact kinds.elim noParameters noArguments

section Remains

variable {old new : Node} (remains : Remains unit.tree (reportedPaths settings unit) old new)

include remains

/-- The rule about attributes has nothing to report about what remains of a node: the list would
have been reported about the attribute that this one remains of. -/
theorem not_attributeList_of_remains
    (attributes : ∀ node ∈ unit.tree.root.descendants, node.kind = .attribute →
      (node.childrenAs .attributeArgumentList).length ≤ 1) :
    ∀ found ∈ Builtin.findings ⟨withoutReported settings unit model, settings⟩ new,
      found.ruleId ≠ AttributeList.descriptor.id := by
  intro found member own
  obtain ⟨oldPlaced, newPlaced⟩ := remains.placed
  rcases Builtin.mem_findings_iff.mp member with ⟨-, casing⟩ | ⟨-, removal⟩ | ⟨on, marking⟩
  · rw [Casing.findings_ruleId _ _ found casing] at own
    exact absurd own (by decide)
  · rw [AnonymousMethodList.finding?_ruleId _ _ found (Option.mem_toList.mpr removal)] at own
    exact absurd own (by decide)
  · obtain ⟨attr, list, rfl, first, nothing, -⟩ := AttributeList.mem_findings_iff.mp marking
    have isAttribute := remains.kind_eq.symm.trans attr.kind_eq
    obtain ⟨oldList, oldFirst, oldNothing, spared⟩ :=
      remains.exists_list (spares_reportedPaths .attributeArgument (by decide) (by decide))
        (attributes old oldPlaced.mem_descendants isAttribute) first nothing
    have reported : AttributeList.finding ⟨unit, settings⟩ ⟨old, isAttribute⟩ oldList ∈
        AttributeList.findings ⟨unit, settings⟩ old :=
      AttributeList.mem_findings_iff.mpr
        ⟨⟨old, isAttribute⟩, oldList, rfl, oldFirst, oldNothing, rfl⟩
    have listed : AttributeList.finding ⟨unit, settings⟩ ⟨old, isAttribute⟩ oldList ∈
        Builtin.findings ⟨unit, settings⟩ old :=
      Builtin.mem_findings_iff.mpr (.inr (.inr ⟨on, reported⟩))
    exact spared (mem_reportedPaths oldPlaced (Builtin.reportedList?_of_mem _ listed oldFirst
      (.inr ⟨isAttribute, rfl⟩)))

/-- The rule about anonymous methods has nothing to report about what remains of a node: the list
would have been reported about one of the anonymous methods that the same node remains of now. -/
theorem not_anonymousMethodList_of_remains
    (methods : ∀ node ∈ unit.tree.root.descendants, node.kind = .anonymousMethodExpression →
      (node.childrenAs .parameterList).length ≤ 1)
    (once : unit.model.AnswersOnce unit.tree)
    (same : SameAnswers unit.tree (reportedPaths settings unit) unit.model model) :
    ∀ found ∈ Builtin.findings ⟨withoutReported settings unit model, settings⟩ new,
      found.ruleId ≠ AnonymousMethodList.descriptor.id := by
  intro found member own
  rcases Builtin.mem_findings_iff.mp member with ⟨-, casing⟩ | ⟨on, removal⟩ | ⟨-, marking⟩
  · rw [Casing.findings_ruleId _ _ found casing] at own
    exact absurd own (by decide)
  · obtain ⟨list, anonymous, first, nothing, allowed, -⟩ :=
      (finding?_eq_some_iff _ remains.placed.2 found).mp removal
    obtain ⟨old, new, remains, sameNow, oldAllowed⟩ := same.exists_allowed
      (spares_reportedPaths .argument (by decide) (by decide))
      (listsAlike_reportedPaths settings once) remains allowed
    obtain ⟨list, first, nothing⟩ := sameNow.symm.exists_childAs? first nothing
    have anonymous := remains.kind_eq.symm.trans (sameNow.kind_eq.symm.trans anonymous)
    obtain ⟨oldPlaced, -⟩ := remains.placed
    obtain ⟨oldList, oldFirst, oldNothing, spared⟩ :=
      remains.exists_list (spares_reportedPaths .parameter (by decide) (by decide))
        (methods old oldPlaced.mem_descendants anonymous) first nothing
    have reported : finding? ⟨unit, settings⟩ old = some (finding ⟨unit, settings⟩ oldList) :=
      (finding?_eq_some_iff _ oldPlaced _).mpr
        ⟨oldList, anonymous, oldFirst, oldNothing, oldAllowed, rfl⟩
    have listed : finding ⟨unit, settings⟩ oldList ∈ Builtin.findings ⟨unit, settings⟩ old :=
      Builtin.mem_findings_iff.mpr (.inr (.inl ⟨on, reported⟩))
    exact spared (mem_reportedPaths oldPlaced (Builtin.reportedList?_of_mem _ listed oldFirst
      (.inl ⟨anonymous, rfl⟩)))
  · rw [AttributeList.findings_ruleId _ _ found marking] at own
    exact absurd own (by decide)

end Remains

/-- **Removing the reported lists.** Let a pass that was not stopped go over a tree in which no
attribute has two argument lists and no anonymous method two parameter lists. The lists that are
reported, one for each finding of the two rules, are removed from the tree. There is a host that
answers for what remains of each call as the host did for the call, with the same symbols; and with
every such host, whatever becomes of the signal, the rule about attributes finds nothing in the new
tree. The rule about anonymous methods finds nothing either if the host answered alike for copies of
one call. -/
theorem removal_settles (settings : Settings) (unit : AnalysisUnit) (signal : Signal)
    (finished : ((builtin settings).analyze unit signal).1.cancelled = false)
    (attributes : ∀ node ∈ unit.tree.root.descendants, node.kind = .attribute →
      (node.childrenAs .attributeArgumentList).length ≤ 1)
    (methods : ∀ node ∈ unit.tree.root.descendants, node.kind = .anonymousMethodExpression →
      (node.childrenAs .parameterList).length ≤ 1) :
    ((((builtin settings).analyze unit signal).1.findings.filter Finding.isRemoval).map
        (·.location)).Perm
      ((reportedLists settings unit).map fun list =>
        Context.location ⟨unit, settings⟩ list.span) ∧
    (∃ model, SameAnswers unit.tree (reportedPaths settings unit) unit.model model) ∧
    ∀ model, SameAnswers unit.tree (reportedPaths settings unit) unit.model model →
      ∀ later, ∀ found ∈
        ((builtin settings).analyze (withoutReported settings unit model) later).1.findings,
        found.ruleId ≠ AttributeList.descriptor.id ∧
          (unit.model.AnswersOnce unit.tree →
            found.ruleId ≠ AnonymousMethodList.descriptor.id) := by
  refine ⟨locations_perm finished, ?_, ?_⟩
  · obtain ⟨model, same, -⟩ := exists_sameAnswers unit.tree (reportedPaths settings unit) unit.model
    exact ⟨model, same⟩
  intro model same later found member
  obtain ⟨new, visited, reported⟩ := exists_node_of_mem_findings member
  obtain ⟨old, remains⟩ := exists_remains_of_placed (placed_of_mem_descendants visited)
  exact ⟨not_attributeList_of_remains remains attributes found reported, fun once =>
    not_anonymousMethodList_of_remains remains methods once same found reported⟩

/-- An attribute with a list that holds nothing. -/
def marking : Element :=
  Tree.element ⟨.attribute, [.node .identifierName [.token .identifier "A"],
    .node .attributeArgumentList [.token .leftParen "(", .token .rightParen ")"]]⟩

/-- The call `Run(delegate(A()){})`, whose argument has an attribute in its parameter list; every
call is bound to the only method. -/
def markedCall : AnalysisUnit where
  path := "Call.cs"
  tree := ⟨.compilationUnit, [marking,
    .node .invocationExpression [.node .identifierName [.token .identifier "Run"],
      .node .argumentList [.token .leftParen "(",
        .node .argument [.node .anonymousMethodExpression [.token .delegateKeyword "delegate",
          .node .parameterList [.token .leftParen "(", marking, .token .rightParen ")"],
          .node .block [.token .leftBrace "\x7b", .token .rightBrace "\x7d"]]],
        .token .rightParen ")"]]]⟩
  model :=
    { (BoundSymbols.ofSteps [.addType "Host" .classType, .addType "Action" .delegate,
        .addMethod ⟨0⟩ "Run" [("f", ⟨1⟩)]]).model with boundMethod? := fun _ => some ⟨0⟩ }
  version := .latest

/-- Three lists are reported, one of them inside of another one, and none once they are removed. -/
theorem removal_settles_markedCall : (reportedLists .default markedCall).length = 3 ∧
    ∀ found ∈ ((builtin .default).analyze
        (withoutReported .default markedCall markedCall.model) .quiet).1.findings,
      found.ruleId ≠ AttributeList.descriptor.id ∧
        found.ruleId ≠ AnonymousMethodList.descriptor.id := by
  obtain ⟨-, -, settled⟩ := removal_settles .default markedCall .quiet (by decide) (by decide)
    (by decide)
  have answers : SameAnswers markedCall.tree (reportedPaths .default markedCall)
      markedCall.model markedCall.model := ⟨rfl, rfl, fun _ _ _ _ => rfl⟩
  have once : markedCall.model.AnswersOnce markedCall.tree :=
    markedCall.model.answersOnce_of_text (by decide)
  refine ⟨by decide, fun found member => ?_⟩
  obtain ⟨markings, removals⟩ := settled markedCall.model answers .quiet found member
  exact ⟨markings, removals once⟩

end Engine

/-! ### Copies that are told apart -/

namespace ToldApart

open Node AnonymousMethodList

def emptyList : Element :=
  .node .parameterList []

/-- An argument without text: an anonymous method with an empty list, and with a call of which the
argument is an anonymous method again. -/
def argumentTree (inner : List Element) : Tree :=
  ⟨.argument, [.node .anonymousMethodExpression [emptyList, .node .block [
    .node .invocationExpression [.node .argumentList [.node .argument [
      .node .anonymousMethodExpression inner]]]]]]⟩

/-- A list of two such arguments. The inner list is given that the first one has. -/
def listTree (inner : List Element) : Tree :=
  ⟨.argumentList, [.token .leftParen "(", (argumentTree inner).element,
    (argumentTree [emptyList]).element, .token .rightParen ")"]⟩

def callTree (inner : List Element) : Tree :=
  ⟨.invocationExpression,
    [.node .identifierName [.token .identifier "Run"], (listTree inner).element]⟩

def fileTree (inner : List Element) : Tree :=
  ⟨.compilationUnit, [(callTree inner).element]⟩

/-- Two overloads of `Run` that differ in the first delegate, and a method with one delegate. -/
def steps : List SymbolStep := [
  .addType "Host" .classType, .addType "Func<int>" .delegate, .addType "Action" .delegate,
  .addMethod ⟨0⟩ "Run" [("f", ⟨1⟩), ("g", ⟨1⟩)],
  .addMethod ⟨0⟩ "Run" [("f", ⟨2⟩), ("g", ⟨1⟩)],
  .addMethod ⟨0⟩ "Go" [("f", ⟨1⟩)]]

/-- The way down to the inner list of the first argument. -/
def innerList : List Nat :=
  [0, 0, 0, 0, 0, 1, 0, 1, 1, 0]

/-- The host tells calls apart by their ways down: it knows the outer one and, of the inner ones,
only the one in the first argument. -/
def boundMethod? (node : Node) : Option MethodId :=
  if node.path = [0] then some ⟨0⟩
  else if node.path = innerList.drop 4 then some ⟨2⟩
  else none

def unit : AnalysisUnit :=
  ⟨"Call.cs", fileTree [emptyList],
    { (BoundSymbols.ofSteps steps).model with boundMethod? }, .latest⟩

/-- Only the inner list of the first argument can be removed. -/
theorem reportedPaths_eq : Engine.reportedPaths .default unit = [innerList] := by
  decide

theorem without_innerList : unit.tree.without [innerList] = fileTree [] := by
  decide

/-- The unit without that list. -/
def remaining (model : SemanticModel) : AnalysisUnit :=
  { unit with tree := fileTree [], model }

def call (inner : List Element) : Node :=
  ⟨callTree inner, 0, [⟨fileTree inner, 0, 0⟩]⟩

def list (inner : List Element) : Node :=
  ⟨listTree inner, 3, ⟨callTree inner, 0, 1⟩ :: (call inner).above⟩

def second (inner : List Element) : Argument :=
  ⟨⟨argumentTree [emptyList], 4, ⟨listTree inner, 3, 2⟩ :: (list inner).above⟩, rfl⟩

/-- The anonymous method that is the second argument. -/
def anonymous (inner : List Element) : Node :=
  ⟨⟨.anonymousMethodExpression, [emptyList, .node .block [
    .node .invocationExpression [.node .argumentList [.node .argument [
      .node .anonymousMethodExpression [emptyList]]]]]]⟩, 4,
    ⟨argumentTree [emptyList], 4, 0⟩ :: (second inner).node.above⟩

theorem place (inner : List Element) :
    ArgumentOf (anonymous inner) (second inner) (list inner) (call inner) where
  under := rfl
  listed := rfl
  isList := .inl rfl
  called := rfl
  isCall := .inl rfl

theorem remains_call : Remains unit.tree [innerList] (call [emptyList]) (call []) := by
  have kept : (unit.tree.root.keptChildren [innerList])[0]? = some (call [emptyList]) := rfl
  refine .child .root kept ?_
  rw [without_innerList]
  rfl

/-- Without the inner list the arguments are two nodes, and the second one is in the second
position, where no other overload fits. -/
theorem offered {model : SemanticModel}
    (same : SameAnswers unit.tree [innerList] unit.model model) :
    finding? ⟨remaining model, .default⟩ (anonymous []) ≠ none := by
  have counted : (list []).positionOf? (second []) = some 1 := by decide
  have bound : model.boundMethod? (call []) = some ⟨0⟩ :=
    same.bindings _ _ remains_call rfl
  rw [finding?_of_argument _ (place []) counted]
  refine ⟨nofun, ⟨0⟩, bound, ?_⟩
  change model.verdict ⟨0⟩ 1 = .unambiguous
  rw [SemanticModel.verdict_eq_of_symbols same.methods same.types]
  decide

/-- So the second anonymous method is reported once the inner list is removed, although it was not
reported before. -/
theorem not_forall_settles : ¬ ∀ (settings : Settings) (unit : AnalysisUnit),
    settings.severityFor? AnonymousMethodList.descriptor ≠ none →
    settings.severityFor? AttributeList.descriptor ≠ none →
    (∀ id, unit.model.raises id = false) →
    ((Engine.builtin settings).analyze unit .quiet).1.cancelled = false →
    (∀ node ∈ unit.tree.root.descendants, node.kind = .attribute →
      (node.childrenAs .attributeArgumentList).length ≤ 1) →
    (∀ node ∈ unit.tree.root.descendants, node.kind = .anonymousMethodExpression →
      (node.childrenAs .parameterList).length ≤ 1) →
    ∀ model, SameAnswers unit.tree (Engine.reportedPaths settings unit) unit.model model →
      (∀ id, model.raises id = false) →
      ∀ found ∈ ((Engine.builtin settings).analyze
          (Engine.withoutReported settings unit model) .quiet).1.findings,
        found.ruleId ≠ AnonymousMethodList.descriptor.id := by
  intro always
  have on : Settings.default.severityFor? AnonymousMethodList.descriptor ≠ none := by decide
  obtain ⟨model, same, raises⟩ := exists_sameAnswers unit.tree
    (Engine.reportedPaths .default unit) unit.model
  have unraising (id) : model.raises id = false := by
    rw [raises]
    rfl
  have settled := always .default unit on (by decide) (fun _ => rfl) (by decide) (by decide)
    (by decide) model same unraising
  rw [Engine.withoutReported, reportedPaths_eq, without_innerList] at settled
  change ∀ found ∈ ((Engine.builtin .default).analyze (remaining model) .quiet).1.findings, _
    at settled
  rw [reportedPaths_eq] at same
  obtain ⟨found, reported⟩ := Option.ne_none_iff_exists'.mp (offered same)
  have visited : anonymous [] ∈ (fileTree []).root.descendants :=
    List.mem_of_getElem? (show (fileTree []).root.descendants[13]? = some (anonymous []) from rfl)
  refine settled found ?_ (finding?_ruleId _ _ found (Option.mem_toList.mpr reported))
  have whole : ((Engine.builtin .default).analyze (remaining model) .quiet).1.findings =
      Finding.sorted (Engine.complete .default (remaining model)) :=
    Engine.findings_of_unraising unraising false
  rw [whole]
  refine (Finding.sorted_perm _).mem_iff.mpr (List.mem_flatMap.mpr ⟨_, visited, ?_⟩)
  exact Builtin.mem_findings_iff.mpr (.inr (.inl ⟨on, reported⟩))

end ToldApart

end TreeLint
