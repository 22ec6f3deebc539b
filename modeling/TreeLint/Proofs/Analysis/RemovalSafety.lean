import TreeLint.Proofs.Analysis.RemovalFindings

/-!
# Whether a removal is safe

A removal is offered for an argument of a call when no other overload fits at the position of the
argument in its list. The parameter that the argument is passed to may stand elsewhere, when a
label names it, or when an argument before it is the same node. For symbols that a host has filled
in step by step, the offers are safe exactly at those arguments where every danger at the parameter
shows at the position as well (`TreeLint.Engine.removal_safe_iff`). They are where the two agree, as
for arguments with text but without a label.
-/

namespace TreeLint

/-- The index of the parameter that an argument is passed to: the one that the label of the argument
names, and otherwise the number of arguments before it. -/
def Argument.passedIndex (argument : Argument) (method : MethodSymbol) : Nat :=
  (((Argument.nameColon? argument).bind NameColon.name?).bind fun label =>
    method.parameters.findIdx? (·.name = label.text)).getD argument.node.rank

/-- Without the parameter list of the argument at an index no other overload with the parameter
names of the bound method fits. -/
def SemanticModel.KeepsCall (model : SemanticModel) (bound : MethodId) (method : MethodSymbol)
    (index : Nat) : Prop :=
  ∀ id other, model.Overload bound method id other →
    other.parameters.map (·.name) = method.parameters.map (·.name) → index < method.arity →
      ¬ model.Fits index method other

/-- Without the parameter list of the argument at an index some other overload fits. -/
def SemanticModel.Ambiguous (model : SemanticModel) (bound : MethodId) (method : MethodSymbol)
    (index : Nat) : Prop :=
  ∃ id other, model.Overload bound method id other ∧ model.Fits index method other

namespace AnonymousMethodList

variable {node : Node} {argument : Argument} {list call : Node} {position : Nat}

/-- The removal of an empty list is offered for an argument when the type of the bound method is
known and no other overload fits at the position of the argument. -/
theorem offered_iff (context : Context) (numbered : context.unit.model.Numbered)
    (place : ArgumentOf node argument list call)
    (counted : list.positionOf? argument = some position) (empty : emptyList? node ≠ none)
    {bound : MethodId} {method : MethodSymbol}
    (binding : context.unit.model.boundMethod? call = some bound)
    (declared : context.unit.model.method? bound = some method) :
    finding? context node ≠ none ↔
      (∃ type, context.unit.model.type? method.containingType = some type) ∧
        ¬ context.unit.model.Ambiguous bound method position := by
  rw [finding?_of_argument context place counted]
  constructor
  · rintro ⟨-, id, called, verdict⟩
    rw [binding] at called
    cases called
    obtain ⟨known, same, type, rejects⟩ :=
      (SemanticModel.verdict_eq_unambiguous_iff numbered).mp verdict
    rw [declared] at same
    cases same
    exact ⟨type, fun ⟨id, other, overload, fits⟩ => rejects id other overload fits⟩
  · rintro ⟨type, unambiguous⟩
    refine ⟨empty, bound, binding, ?_⟩
    rw [SemanticModel.verdict_eq_unambiguous_iff numbered]
    exact ⟨method, declared, type, fun id other overload fits =>
      unambiguous ⟨id, other, overload, fits⟩⟩

/-- An offer is safe exactly where a danger at the parameter shows at the position as well. -/
theorem offer_safe_iff (context : Context) (numbered : context.unit.model.Numbered)
    (place : ArgumentOf node argument list call)
    (counted : list.positionOf? argument = some position) (empty : emptyList? node ≠ none)
    {bound : MethodId} {method : MethodSymbol}
    (binding : context.unit.model.boundMethod? call = some bound)
    (declared : context.unit.model.method? bound = some method) (index : Nat) :
    (finding? context node ≠ none → context.unit.model.KeepsCall bound method index) ↔
      context.unit.model.KeepsCall bound method index ∨
        context.unit.model.Ambiguous bound method position := by
  rw [offered_iff context numbered place counted empty binding declared]
  constructor
  · intro safe
    by_cases ambiguous : context.unit.model.Ambiguous bound method position
    · exact .inr ambiguous
    · refine .inl fun id other overload names within fits => ?_
      obtain ⟨type, known, -⟩ := overload.member
      exact safe ⟨⟨type, known⟩, ambiguous⟩ id other overload names within fits
  · rintro (keeps | ambiguous) ⟨-, unambiguous⟩
    · exact keeps
    · exact absurd ambiguous unambiguous

end AnonymousMethodList

namespace Engine

open AnonymousMethodList

/-- **When a removal is safe.** For symbols and bindings filled in by any steps, with the rule on
and the signal unraised, the findings of the rule are those about the anonymous methods of the tree.
One that is an argument of a call has a position in the list, which is that of the first argument
that is the same node, and of an argument with text the number of arguments before it. It has a
finding only if the call is bound to a declared method. An offer to remove its empty list makes no
other overload with the same parameter names fit exactly if none fits at the parameter that the
argument is passed to, or some other overload fits at the position of the argument, so that there is
no offer. This is so where the two indexes agree. -/
theorem removal_safe_iff (settings : Settings) (unit : AnalysisUnit) (signal : Signal)
    (steps : List SymbolStep) (filled : unit.model = (BoundSymbols.ofSteps steps).model)
    (on : settings.severityFor? AnonymousMethodList.descriptor ≠ none)
    (unraised : ((builtin settings).analyze unit signal).2.raised = false) :
    (((builtin settings).analyze unit signal).1.findingsFor
        AnonymousMethodList.descriptor.id).Perm
      (unit.tree.root.descendants.filterMap (finding? ⟨unit, settings⟩)) ∧
    ∀ node ∈ unit.tree.root.descendants, ∀ argument list call,
      ArgumentOf node argument list call →
      ∃ position, list.positionOf? argument = some position ∧ list.FirstSame argument position ∧
        (argument.node.text ≠ "" → position = argument.node.rank) ∧
        (finding? ⟨unit, settings⟩ node ≠ none → ∃ bound method,
          unit.model.boundMethod? call = some bound ∧ unit.model.method? bound = some method) ∧
        ∀ bound method, unit.model.boundMethod? call = some bound →
          unit.model.method? bound = some method → emptyList? node ≠ none →
          ((finding? ⟨unit, settings⟩ node ≠ none →
              unit.model.KeepsCall bound method (Argument.passedIndex argument method)) ↔
            unit.model.KeepsCall bound method (Argument.passedIndex argument method) ∨
              unit.model.Ambiguous bound method position) ∧
          (Argument.passedIndex argument method = position →
            finding? ⟨unit, settings⟩ node ≠ none →
              unit.model.KeepsCall bound method (Argument.passedIndex argument method)) := by
  have numbered : unit.model.Numbered := by
    rw [filled]
    exact BoundSymbols.ofSteps_numbered steps
  refine ⟨findingsFor_perm on unraised, ?_⟩
  intro node member argument list call place
  have placed := Node.placed_of_mem_descendants member
  obtain ⟨position, counted, first⟩ := place.position placed
  refine ⟨position, counted, first, first.eq_rank_of_text (place.member placed), ?_,
    fun bound method binding declared empty => ⟨?_, ?_⟩⟩
  · intro found
    obtain ⟨-, bound, binding, verdict⟩ :=
      (finding?_of_argument ⟨unit, settings⟩ place counted).mp found
    obtain ⟨method, declared, -⟩ :=
      (SemanticModel.verdict_eq_unambiguous_iff numbered).mp verdict
    exact ⟨bound, method, binding, declared⟩
  · exact offer_safe_iff ⟨unit, settings⟩ numbered place counted empty binding declared _
  · intro same found
    have offered := (offered_iff ⟨unit, settings⟩ numbered place counted empty binding
      declared).mp found
    rw [same]
    intro id other overload _ _ fits
    exact offered.2 ⟨id, other, overload, fits⟩

end Engine

/-! ### A label that tells another parameter

In the call `Run(n: 1, f: delegate(){})` the anonymous method stands at the second position
and is passed to the first parameter.
-/

namespace Reordered

def anonymousTree : Tree :=
  ⟨.anonymousMethodExpression, [.token .delegateKeyword "delegate",
    .node .parameterList [.token .leftParen "(", .token .rightParen ")"],
    .node .block [.token .leftBrace "\x7b", .token .rightBrace "\x7d"]]⟩

def label (name : String) : Element :=
  .node .nameColon [.node .identifierName [.token .identifier name], .token .colon ":"]

/-- The second argument, for the parameter `f`. -/
def argumentTree : Tree :=
  ⟨.argument, [label "f", .token .whitespace " ", anonymousTree.element]⟩

/-- The arguments of the call, the first one for the parameter `n`. -/
def listTree : Tree :=
  ⟨.argumentList, [.token .leftParen "(",
    .node .argument [label "n", .token .whitespace " ",
      .node .literalExpression [.token .intLiteral "1"]],
    .token .comma ",", .token .whitespace " ", argumentTree.element, .token .rightParen ")"]⟩

def callTree : Tree :=
  ⟨.invocationExpression, [.node .identifierName [.token .identifier "Run"], listTree.element]⟩

def statementTree : Tree :=
  ⟨.expressionStatement, [callTree.element, .token .semicolon ";"]⟩

def fileTree : Tree :=
  ⟨.compilationUnit, [statementTree.element]⟩

def call : Node :=
  ⟨callTree, 0, [⟨statementTree, 0, 0⟩, ⟨fileTree, 0, 0⟩]⟩

def list : Node :=
  ⟨listTree, 3, ⟨callTree, 0, 1⟩ :: call.above⟩

def argument : Argument :=
  ⟨⟨argumentTree, 10, ⟨listTree, 3, 4⟩ :: list.above⟩, rfl⟩

def anonymous : Node :=
  ⟨anonymousTree, 13, ⟨argumentTree, 10, 2⟩ :: argument.node.above⟩

/-- Two overloads of `Run` with the parameters `f` and `n`. The call is bound to the one that takes
a function with a result; the other takes an action. -/
def steps : List SymbolStep := [
  .addType "Host" .classType, .addType "int" .primitive, .addType "Func<int>" .delegate,
  .addType "Action" .delegate,
  .addMethod ⟨0⟩ "Run" [("f", ⟨2⟩), ("n", ⟨1⟩)],
  .addMethod ⟨0⟩ "Run" [("f", ⟨3⟩), ("n", ⟨1⟩)],
  .bind call ⟨0⟩]

def unit : AnalysisUnit :=
  ⟨"Call.cs", fileTree, (BoundSymbols.ofSteps steps).model, .latest⟩

theorem mem_descendants : anonymous ∈ unit.tree.root.descendants :=
  List.mem_of_getElem? (show unit.tree.root.descendants[12]? = some anonymous from rfl)

theorem place : AnonymousMethodList.ArgumentOf anonymous argument list call where
  under := rfl
  listed := rfl
  isList := .inl rfl
  called := rfl
  isCall := .inl rfl

def method : MethodSymbol :=
  ⟨"Run", ⟨0⟩, [⟨"f", ⟨2⟩, 0⟩, ⟨"n", ⟨1⟩, 1⟩]⟩

def other : MethodSymbol :=
  ⟨"Run", ⟨0⟩, [⟨"f", ⟨3⟩, 0⟩, ⟨"n", ⟨1⟩, 1⟩]⟩

/-- The position of the argument says nothing against a removal: at the second position neither
overload takes a delegate. -/
theorem offered : AnonymousMethodList.finding? ⟨unit, .default⟩ anonymous ≠ none := by
  have counted : list.positionOf? argument = some 1 := by decide
  rw [AnonymousMethodList.finding?_of_argument _ place counted]
  exact ⟨nofun, ⟨0⟩, rfl, by decide⟩

/-- But for the parameter `f` both overloads take a delegate. -/
theorem not_keepsCall :
    ¬ unit.model.KeepsCall ⟨0⟩ method (Argument.passedIndex argument method) := by
  have overload : unit.model.Overload ⟨0⟩ method ⟨1⟩ other :=
    ⟨⟨_, rfl, by decide⟩, by decide, rfl, rfl, rfl⟩
  have index : Argument.passedIndex argument method = 0 := by decide
  have fits : unit.model.Fits 0 method other := by
    refine ⟨fun theirs found => ?_, fun place theirs ours apart found beside => ?_⟩
    · cases found
      decide
    · match place with
      | 0 => exact absurd rfl apart
      | 1 =>
          cases found
          cases beside
          rfl
      | _ + 2 => exact nomatch found
  intro keeps
  rw [index] at keeps
  exact keeps ⟨1⟩ other overload rfl (by decide) fits

theorem not_ambiguous : ∃ position, list.positionOf? argument = some position ∧ position = 1 ∧
    ¬ unit.model.Ambiguous ⟨0⟩ method position := by
  obtain ⟨position, counted, -, ranked, -, safe⟩ := (Engine.removal_safe_iff .default unit .quiet
    steps rfl (by decide) (by decide)).2 anonymous mem_descendants argument list call place
  refine ⟨position, counted, ranked (by decide), fun ambiguous => not_keepsCall ?_⟩
  exact (safe ⟨0⟩ method rfl rfl nofun).1.mpr (.inr ambiguous) offered

/-- So a removal that is offered may change what is called. -/
theorem not_forall_keepsCall : ¬ ∀ (settings : Settings) (unit : AnalysisUnit) (signal : Signal)
    (steps : List SymbolStep), unit.model = (BoundSymbols.ofSteps steps).model →
    ((Engine.builtin settings).analyze unit signal).2.raised = false →
    ∀ node ∈ unit.tree.root.descendants, ∀ found,
      AnonymousMethodList.finding? ⟨unit, settings⟩ node = some found →
      found ∈ ((Engine.builtin settings).analyze unit signal).1.findingsFor
        AnonymousMethodList.descriptor.id →
      ∀ argument list call, AnonymousMethodList.ArgumentOf node argument list call →
      ∀ bound method, unit.model.boundMethod? call = some bound →
        unit.model.method? bound = some method →
        unit.model.KeepsCall bound method (Argument.passedIndex argument method) := by
  intro always
  obtain ⟨found, same⟩ := Option.ne_none_iff_exists'.mp offered
  have listed := List.mem_filterMap.mpr ⟨anonymous, mem_descendants, same⟩
  have quiet : ((Engine.builtin .default).analyze unit .quiet).2.raised = false := by decide
  have reported := (Engine.findingsFor_perm (by decide) quiet).mem_iff.mpr listed
  exact not_keepsCall (always .default unit .quiet steps rfl quiet anonymous mem_descendants
    found same reported argument list call place ⟨0⟩ method rfl rfl)

end Reordered

end TreeLint
