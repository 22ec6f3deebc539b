import Mathlib.Data.Option.Basic
import TreeLint.Proofs.Rule.Removal
import TreeLint.Proofs.Tree.Sameness

/-!
# When the list of an anonymous method can be removed

What the check of anonymous methods does step by step, said as one condition on the tree and the
answers of the host. An anonymous method is an argument of a call when an argument, an argument
list and a call are above it in this order (`TreeLint.AnonymousMethodList.ArgumentOf`); then the
position that the host is asked about is always found
(`TreeLint.AnonymousMethodList.ArgumentOf.position`).
-/

namespace TreeLint.AnonymousMethodList

/-- A node is an argument of a call: an argument, an argument list and a call are above it. -/
structure ArgumentOf (node : Node) (argument : Argument) (list call : Node) : Prop where
  under : node.parent? = some argument.node
  listed : argument.node.parent? = some list
  isList : list.kind = .argumentList ∨ list.kind = .bracketedArgumentList
  called : list.parent? = some call
  isCall : call.kind = .invocationExpression ∨ call.kind = .objectCreationExpression ∨
    call.kind = .elementAccessExpression

/-- The place of an anonymous method allows to remove its list, with some way to count positions: it
is not an argument of a call, or else the call is bound to a method and the resolution of the
undisturbed host is that no other overload fits at the position of the argument. -/
def AllowedAt (position? : Node → Argument → Option Nat) (model : SemanticModel) (node : Node) :
    Prop :=
  (∀ argument list call, ¬ ArgumentOf node argument list call) ∨
    ∃ argument list call method position, ArgumentOf node argument list call ∧
      model.boundMethod? call = some method ∧ position? list argument = some position ∧
      (model.silent.resolve method position .quiet).1 = some .unambiguous

/-- The place of an anonymous method allows to remove its list, where the first argument that is the
same node gives the position. -/
def Allowed (model : SemanticModel) (node : Node) : Prop :=
  AllowedAt Node.positionOf? model node

/-- A relation of nodes keeps their kinds, and passes on to the nodes above them. -/
structure Upwards (related : Node → Node → Prop) : Prop where
  kind_eq : ∀ {first second : Node}, related first second → second.kind = first.kind
  parent : ∀ {first second parent : Node}, related first second → first.parent? = some parent →
    ∃ parentToo, second.parent? = some parentToo ∧ related parent parentToo

/-- Of nodes that are related from below upwards, one is an argument of a call if the other one is,
and the arguments, the lists and the calls are related too. -/
theorem ArgumentOf.lift {related : Node → Node → Prop} {node other : Node} {argument : Argument}
    {list call : Node} (up : Upwards related) (place : ArgumentOf node argument list call)
    (like : related node other) :
    ∃ argumentToo listToo callToo, ArgumentOf other argumentToo listToo callToo ∧
      related argument.node argumentToo.node ∧ related list listToo ∧ related call callToo := by
  obtain ⟨argumentToo, under, arguments⟩ := up.parent like place.under
  obtain ⟨listToo, listed, lists⟩ := up.parent arguments place.listed
  obtain ⟨callToo, called, calls⟩ := up.parent lists place.called
  refine ⟨⟨argumentToo, (up.kind_eq arguments).trans argument.kind_eq⟩, listToo, callToo,
    ⟨under, listed, ?_, called, ?_⟩, arguments, lists, calls⟩
  · rw [up.kind_eq lists]
    exact place.isList
  · rw [up.kind_eq calls]
    exact place.isCall

theorem isArgumentList_iff (kind : NodeKind) : isArgumentList kind = true ↔
    kind = .argumentList ∨ kind = .bracketedArgumentList := by
  simp only [isArgumentList, Bool.or_eq_true, decide_eq_true_eq]

theorem isSome_callForm?_iff (kind : NodeKind) : kind.callForm?.isSome = true ↔
    kind = .invocationExpression ∨ kind = .objectCreationExpression ∨
      kind = .elementAccessExpression := by
  cases kind <;> decide

section Place

variable {tree : Tree} {node : Node}

theorem ArgumentOf.member {argument : Argument} {list call : Node} (placed : node.Placed tree)
    (place : ArgumentOf node argument list call) : argument.node ∈ list.children := by
  obtain ⟨argumentPlaced, -⟩ := placed.of_parent? place.under
  exact (argumentPlaced.of_parent? place.listed).2

/-- The position of an argument in its own list is always found. -/
theorem ArgumentOf.position {argument : Argument} {list call : Node} (placed : node.Placed tree)
    (place : ArgumentOf node argument list call) :
    ∃ position, list.positionOf? argument = some position ∧ list.FirstSame argument position :=
  Node.exists_positionOf? (place.member placed)

/-- A node is an argument of one call at most. -/
theorem ArgumentOf.unique {argument other : Argument} {list otherList call otherCall : Node}
    (place : ArgumentOf node argument list call)
    (same : ArgumentOf node other otherList otherCall) :
    other = argument ∧ otherList = list ∧ otherCall = call := by
  have nodes := Option.some.inj (same.under.symm.trans place.under)
  cases argument
  cases other
  cases nodes
  cases place.listed.symm.trans same.listed
  cases place.called.symm.trans same.called
  exact ⟨rfl, rfl, rfl⟩

theorem callArgument?_eq_some_iff (node : Node) (found : CallArgument) :
    callArgument? node = some found ↔ ∃ argument list call position,
      ArgumentOf node argument list call ∧ list.positionOf? argument = some position ∧
        found = ⟨call, position⟩ := by
  unfold callArgument?
  constructor
  · intro same
    obtain ⟨parent, up, same⟩ := Option.bind_eq_some_iff.mp same
    obtain ⟨argument, known, same⟩ := Option.bind_eq_some_iff.mp same
    obtain ⟨list, listed, same⟩ := Option.bind_eq_some_iff.mp same
    obtain ⟨_, isList, same⟩ := Option.bind_eq_some_iff.mp same
    obtain ⟨call, called, same⟩ := Option.bind_eq_some_iff.mp same
    obtain ⟨_, isCall, same⟩ := Option.bind_eq_some_iff.mp same
    obtain ⟨position, counted, same⟩ := Option.bind_eq_some_iff.mp same
    rw [← Node.as?_node known] at up
    rw [Option.guard_eq_some', isArgumentList_iff] at isList
    rw [Option.guard_eq_some', isSome_callForm?_iff] at isCall
    exact ⟨argument, list, call, position, ⟨up, listed, isList, called, isCall⟩, counted,
      (Option.some.inj same).symm⟩
  · rintro ⟨argument, list, call, position, place, counted, rfl⟩
    have known : argument.node.as? .argument = some argument := dif_pos argument.kind_eq
    have isList := (Option.guard_eq_some' ()).mpr ((isArgumentList_iff _).mpr place.isList)
    have isCall := (Option.guard_eq_some' ()).mpr ((isSome_callForm?_iff _).mpr place.isCall)
    refine Option.bind_eq_some_iff.mpr ⟨argument.node, place.under, ?_⟩
    refine Option.bind_eq_some_iff.mpr ⟨argument, known, ?_⟩
    refine Option.bind_eq_some_iff.mpr ⟨list, place.listed, ?_⟩
    refine Option.bind_eq_some_iff.mpr ⟨(), isList, ?_⟩
    refine Option.bind_eq_some_iff.mpr ⟨call, place.called, ?_⟩
    refine Option.bind_eq_some_iff.mpr ⟨(), isCall, ?_⟩
    exact Option.bind_eq_some_iff.mpr ⟨position, counted, rfl⟩

/-- At an argument of a call the check asks the host, and takes an unbound call for unsafe. -/
theorem removable_of_argument (context : Context) {argument : Argument} {list call : Node}
    {position : Nat} (place : ArgumentOf node argument list call)
    (counted : list.positionOf? argument = some position) :
    removable context node = true ↔ ∃ method, context.unit.model.boundMethod? call = some method ∧
      context.unit.model.verdict method position = .unambiguous := by
  have found := (callArgument?_eq_some_iff node _).mpr
    ⟨argument, list, call, position, place, counted, rfl⟩
  rw [removable, found]
  dsimp only
  cases context.unit.model.boundMethod? call with
  | none => exact ⟨Bool.noConfusion, fun ⟨method, bound, _⟩ => nomatch bound⟩
  | some method =>
      constructor
      · exact fun safe => ⟨method, rfl, of_decide_eq_true safe⟩
      · rintro ⟨_, bound, verdict⟩
        cases bound
        exact decide_eq_true verdict

/-- A list that is no argument of a call can be removed whatever the host knows. -/
theorem removable_of_nowhere (context : Context)
    (nowhere : ∀ argument list call, ¬ ArgumentOf node argument list call) :
    removable context node = true := by
  have none : callArgument? node = none := by
    refine Option.eq_none_iff_forall_ne_some.mpr fun found same => ?_
    obtain ⟨argument, list, call, -, place, -⟩ := (callArgument?_eq_some_iff node found).mp same
    exact nowhere argument list call place
  rw [removable, none]

/-- Lists can be removed alike that are at related nodes, if the host is asked about the same
position and method in both places and knows the same symbols. -/
theorem removable_eq_of_upwards {related : Node → Node → Prop} {context contextToo : Context}
    {other : Node} (up : Upwards related) (back : Upwards (flip related))
    (methods : contextToo.unit.model.method? = context.unit.model.method?)
    (types : contextToo.unit.model.type? = context.unit.model.type?) (placed : node.Placed tree)
    (like : related node other)
    (asked : ∀ {argument argumentToo : Argument} {list listToo call callToo : Node},
      ArgumentOf node argument list call → related argument.node argumentToo.node →
      related list listToo → related call callToo →
        listToo.positionOf? argumentToo = list.positionOf? argument ∧
          contextToo.unit.model.boundMethod? callToo = context.unit.model.boundMethod? call) :
    removable contextToo other = removable context node := by
  by_cases somewhere : ∃ argument list call, ArgumentOf node argument list call
  · obtain ⟨argument, list, call, place⟩ := somewhere
    obtain ⟨argumentToo, listToo, callToo, placeToo, arguments, lists, calls⟩ := place.lift up like
    obtain ⟨position, counted, -⟩ := place.position placed
    obtain ⟨positions, bound⟩ := asked place arguments lists calls
    rw [Bool.eq_iff_iff, removable_of_argument context place counted,
      removable_of_argument contextToo placeToo (positions.trans counted), bound,
      SemanticModel.verdict_eq_of_symbols methods types]
  · have nowhere : ∀ argument list call, ¬ ArgumentOf node argument list call :=
      fun argument list call place => somewhere ⟨argument, list, call, place⟩
    have nowhereToo : ∀ argument list call, ¬ ArgumentOf other argument list call := by
      intro argument list call place
      obtain ⟨argumentToo, listToo, callToo, placeToo, -⟩ := place.lift back like
      exact nowhere argumentToo listToo callToo placeToo
    rw [removable_of_nowhere context nowhere, removable_of_nowhere contextToo nowhereToo]

/-- At an argument of a call the place allows what the resolution at the position does. -/
theorem allowedAt_of_argument {position? : Node → Argument → Option Nat} {model : SemanticModel}
    {argument : Argument} {list call : Node} {position : Nat}
    (place : ArgumentOf node argument list call)
    (counted : position? list argument = some position) : AllowedAt position? model node ↔
      ∃ method, model.boundMethod? call = some method ∧
        model.verdict method position = .unambiguous := by
  constructor
  · rintro (nowhere | ⟨_, _, _, method, _, also, bound, asked, resolved⟩)
    · exact absurd place (nowhere argument list call)
    · obtain ⟨rfl, rfl, rfl⟩ := place.unique also
      cases counted.symm.trans asked
      rw [SemanticModel.resolve_silent] at resolved
      exact ⟨method, bound, Option.some.inj resolved⟩
  · rintro ⟨method, bound, verdict⟩
    refine .inr ⟨argument, list, call, method, position, place, bound, counted, ?_⟩
    rw [SemanticModel.resolve_silent, verdict]

/-- The check allows what the place of the anonymous method allows. -/
theorem removable_iff (context : Context) (placed : node.Placed tree) :
    removable context node = true ↔ Allowed context.unit.model node := by
  by_cases somewhere : ∃ argument list call, ArgumentOf node argument list call
  · obtain ⟨argument, list, call, place⟩ := somewhere
    obtain ⟨position, counted, -⟩ := place.position placed
    rw [removable_of_argument context place counted]
    exact (allowedAt_of_argument place counted).symm
  · have nowhere : ∀ argument list call, ¬ ArgumentOf node argument list call :=
      fun argument list call place => somewhere ⟨argument, list, call, place⟩
    exact iff_of_true (removable_of_nowhere context nowhere) (.inl nowhere)

theorem emptyList?_eq_some_iff (node : Node) (list : ParameterList) :
    emptyList? node = some list ↔ node.kind = .anonymousMethodExpression ∧
      node.parameterList? = some list ∧ ParameterList.parameters list = [] := by
  unfold emptyList?
  constructor
  · intro same
    obtain ⟨anonymous, known, same⟩ := Option.bind_eq_some_iff.mp same
    obtain ⟨parameters, first, same⟩ := Option.bind_eq_some_iff.mp same
    obtain ⟨_, nothing, same⟩ := Option.bind_eq_some_iff.mp same
    cases same
    rw [Option.guard_eq_some', List.isEmpty_iff] at nothing
    have kind := anonymous.kind_eq
    rw [Node.as?_node known] at first kind
    exact ⟨kind, first, nothing⟩
  · rintro ⟨anonymous, first, nothing⟩
    have empty := (Option.guard_eq_some' ()).mpr (List.isEmpty_iff.mpr nothing)
    refine Option.bind_eq_some_iff.mpr ⟨⟨node, anonymous⟩, dif_pos anonymous, ?_⟩
    refine Option.bind_eq_some_iff.mpr ⟨list, first, ?_⟩
    exact Option.bind_eq_some_iff.mpr ⟨(), empty, rfl⟩

theorem finding?_of_other {context : Context} (other : node.kind ≠ .anonymousMethodExpression) :
    finding? context node = none := by
  rw [finding?, emptyList?, Node.as?_of_other other]
  rfl

/-- There is a finding about an argument of a call when its list is empty and the call is bound to a
method with no other overload that fits at the position. -/
theorem finding?_of_argument (context : Context) {argument : Argument} {list call : Node}
    {position : Nat} (place : ArgumentOf node argument list call)
    (counted : list.positionOf? argument = some position) : finding? context node ≠ none ↔
      emptyList? node ≠ none ∧ ∃ method, context.unit.model.boundMethod? call = some method ∧
        context.unit.model.verdict method position = .unambiguous := by
  rw [← removable_of_argument context place counted, finding?]
  cases emptyList? node with
  | none => exact ⟨fun found => absurd rfl found, fun ⟨empty, _⟩ => absurd rfl empty⟩
  | some list =>
      rw [Option.bind_some]
      cases removable context node with
      | true => exact ⟨fun _ => ⟨nofun, rfl⟩, fun _ => nofun⟩
      | false => exact ⟨fun found => absurd rfl found, fun ⟨_, allowed⟩ => nomatch allowed⟩

/-- A finding is about the first parameter list of the node. -/
theorem exists_list_of_finding? {context : Context} {found : Finding}
    (reported : finding? context node = some found) :
    ∃ list, node.parameterList? = some list ∧ found = finding context list := by
  obtain ⟨list, empty, reported⟩ := Option.bind_eq_some_iff.mp reported
  obtain ⟨-, first, -⟩ := (emptyList?_eq_some_iff node list).mp empty
  split at reported
  · cases reported
    exact ⟨list, first, rfl⟩
  · cases reported

/-- There is a finding exactly about the first parameter list of an anonymous method, when it has
no parameters and the place of the anonymous method allows to remove it. -/
theorem finding?_eq_some_iff (context : Context) (placed : node.Placed tree) (found : Finding) :
    finding? context node = some found ↔ ∃ list, node.kind = .anonymousMethodExpression ∧
      node.parameterList? = some list ∧ ParameterList.parameters list = [] ∧
      Allowed context.unit.model node ∧ found = finding context list := by
  rw [← removable_iff context placed, finding?]
  constructor
  · intro same
    obtain ⟨list, empty, reported⟩ := Option.bind_eq_some_iff.mp same
    obtain ⟨anonymous, first, nothing⟩ := (emptyList?_eq_some_iff node list).mp empty
    split at reported
    · next allowed =>
        cases reported
        exact ⟨list, anonymous, first, nothing, allowed, rfl⟩
    · cases reported
  · rintro ⟨list, anonymous, first, nothing, allowed, rfl⟩
    have empty := (emptyList?_eq_some_iff node list).mpr ⟨anonymous, first, nothing⟩
    exact Option.bind_eq_some_iff.mpr ⟨list, empty, if_pos allowed⟩

end Place

end TreeLint.AnonymousMethodList
