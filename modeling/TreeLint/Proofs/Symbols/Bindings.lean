import Mathlib.Data.Set.Card
import TreeLint.Dict
import TreeLint.Proofs.Symbols.Growth
import TreeLint.Proofs.Tree.Nesting

/-!
# Bindings of calls

A binding is kept under the kind and the span of a call, and not under the call itself. Where every
call has text and no child node covers all of a call, these are as good: each call is bound to the
method that it was bound to last, however calls nest and whatever text they share, and there are as
many bindings as bound calls (`TreeLint.BoundSymbols.bindings_by_call`).
-/

namespace TreeLint

/-- The calls of a tree. -/
structure Node.CallOf (tree : Tree) (call : Node) : Prop where
  placed : call.Placed tree
  isCall : call.kind.callForm?.isSome = true

namespace Tree

/-- Every call has text, and no child node covers all of a call. -/
structure CallsApart (tree : Tree) : Prop where
  texts : ∀ call : Node, call.CallOf tree → call.text ≠ ""
  alone : ∀ call : Node, call.CallOf tree → ∀ child ∈ call.children, child.span ≠ call.span

/-- The calls of a tree in preorder. -/
def calls (tree : Tree) : List Node :=
  tree.root.descendants.filter (·.kind.callForm?.isSome)

theorem mem_calls_iff {tree : Tree} {call : Node} : call ∈ tree.calls ↔ call.CallOf tree := by
  rw [calls, List.mem_filter]
  constructor
  · exact fun ⟨visited, isCall⟩ => ⟨Node.placed_of_mem_descendants visited, isCall⟩
  · exact fun found => ⟨found.placed.mem_descendants, found.isCall⟩

instance (tree : Tree) : Decidable tree.CallsApart :=
  decidable_of_iff
    (∀ call ∈ tree.calls, call.text ≠ "" ∧ ∀ child ∈ call.children, child.span ≠ call.span)
    ⟨fun all => ⟨fun call found => (all call (mem_calls_iff.mpr found)).1,
        fun call found => (all call (mem_calls_iff.mpr found)).2⟩,
      fun apart call member => ⟨apart.texts call (mem_calls_iff.mp member),
        apart.alone call (mem_calls_iff.mp member)⟩⟩

/-- Calls that share a key are the same. -/
theorem CallsApart.eq_of_key {tree : Tree} (apart : tree.CallsApart) {first second : Node}
    (former : first.CallOf tree) (latter : second.CallOf tree) (same : first.key = second.key) :
    first = second :=
  former.placed.eq_of_span latter.placed (apart.texts first former) (apart.alone first former)
    (apart.alone second latter) (congrArg NodeKey.span same)

end Tree

theorem Node.key_eq_iff {first second : Node} :
    first.key = second.key ↔ first.kind = second.kind ∧ first.span = second.span :=
  NodeKey.mk.injEq .. ▸ .rfl

namespace BoundSymbols

/-! ### One step -/

section Step

variable (bound : BoundSymbols)

/-- A binding answers for its key and for no other. -/
theorem boundMethod?_bind (call : Node) (method : MethodId) (node : Node) :
    (bound.bind call method).boundMethod? node =
      if node.key = call.key then some method else bound.boundMethod? node := by
  change ((call.key, method) :: bound.bindings.filter (·.1 ≠ call.key)).lookup node.key = _
  rw [Dict.lookup_entry]
  split
  · rfl
  · next different => exact Dict.lookup_filter_of_ne different bound.bindings

/-- A step binds a call or leaves the bindings as they are. -/
theorem apply_binds (step : SymbolStep) : (∃ call method, step = .bind call method) ∨
    (∀ call method, step ≠ .bind call method) ∧
      (bound.apply step).bindings = bound.bindings := by
  cases step with
  | bind call method => exact .inl ⟨call, method, rfl⟩
  | addType name kind => exact .inr ⟨fun _ _ => SymbolStep.noConfusion, rfl⟩
  | addMethod owner name parameters => exact .inr ⟨fun _ _ => SymbolStep.noConfusion, rfl⟩
  | addConstructor owner parameters => exact .inr ⟨fun _ _ => SymbolStep.noConfusion, rfl⟩

theorem boundMethod?_apply_of_other {step : SymbolStep} {node : Node}
    (other : ∀ call method, step = .bind call method → node.key ≠ call.key) :
    (bound.apply step).boundMethod? node = bound.boundMethod? node := by
  rcases bound.apply_binds step with ⟨call, method, rfl⟩ | ⟨-, kept⟩
  · exact (bound.boundMethod?_bind call method node).trans (if_neg (other call method rfl))
  · rw [boundMethod?, kept]
    rfl

theorem mem_keys_bind_iff {call : Node} {method : MethodId} {key : NodeKey} :
    key ∈ (bound.bind call method).bindings.map (·.1) ↔
      key = call.key ∨ key ∈ bound.bindings.map (·.1) := by
  change key ∈ (_ :: bound.bindings.filter _).map (·.1) ↔ _
  rw [List.map_cons, List.mem_cons]
  by_cases same : key = call.key
  · exact iff_of_true (.inl same) (.inl same)
  · refine or_congr_right ?_
    simp only [List.mem_map, List.mem_filter, decide_eq_true_eq]
    constructor
    · rintro ⟨binding, ⟨listed, -⟩, rfl⟩
      exact ⟨binding, listed, rfl⟩
    · rintro ⟨binding, listed, rfl⟩
      exact ⟨binding, ⟨listed, same⟩, rfl⟩

theorem nodup_keys_bind {call : Node} {method : MethodId}
    (unique : (bound.bindings.map (·.1)).Nodup) :
    ((bound.bind call method).bindings.map (·.1)).Nodup := by
  refine List.nodup_cons.mpr ⟨?_, (List.filter_sublist.map _).nodup unique⟩
  rw [List.mem_map]
  rintro ⟨binding, listed, same⟩
  exact of_decide_eq_true (List.mem_filter.mp listed).2 same

end Step

/-! ### Histories -/

theorem boundMethod?_foldl_of_other {steps : List SymbolStep} {node : Node}
    (other : ∀ call method, .bind call method ∈ steps → node.key ≠ call.key)
    (bound : BoundSymbols) :
    (steps.foldl apply bound).boundMethod? node = bound.boundMethod? node := by
  induction steps generalizing bound with
  | nil => rfl
  | cons step steps ih =>
      rw [List.foldl_cons, ih fun call method member =>
        other call method (List.mem_cons_of_mem _ member)]
      apply boundMethod?_apply_of_other
      rintro call method rfl
      exact other call method List.mem_cons_self

/-- The nodes that were bound. -/
def boundCalls (steps : List SymbolStep) : Set Node :=
  {call | ∃ method, .bind call method ∈ steps}

theorem mem_boundCalls_concat_iff {steps : List SymbolStep} {step : SymbolStep} {call : Node} :
    call ∈ boundCalls (steps ++ [step]) ↔
      call ∈ boundCalls steps ∨ ∃ method, step = .bind call method := by
  change (∃ method, _ ∈ steps ++ [step]) ↔ (∃ method, _ ∈ steps) ∨ _
  simp only [List.mem_append, List.mem_singleton, exists_or, eq_comm]

theorem mem_keys_ofSteps_iff {steps : List SymbolStep} {key : NodeKey} :
    key ∈ (ofSteps steps).bindings.map (·.1) ↔ ∃ call ∈ boundCalls steps, call.key = key := by
  induction steps using List.reverseRecOn with
  | nil => simp [ofSteps, empty, boundCalls]
  | append_singleton steps step ih =>
      simp only [ofSteps_concat, mem_boundCalls_concat_iff, or_and_right, exists_or]
      rw [← ih]
      rcases (ofSteps steps).apply_binds step with ⟨call, method, rfl⟩ | ⟨other, kept⟩
      · rw [apply, mem_keys_bind_iff, or_comm]
        refine or_congr_right ⟨?_, ?_⟩
        · exact fun same => ⟨call, ⟨method, rfl⟩, same.symm⟩
        · rintro ⟨other, ⟨_, same⟩, rfl⟩
          cases same
          rfl
      · rw [kept]
        refine (or_iff_left ?_).symm
        rintro ⟨call, ⟨method, same⟩, -⟩
        exact other call method same

theorem nodup_keys_ofSteps (steps : List SymbolStep) :
    ((ofSteps steps).bindings.map (·.1)).Nodup := by
  induction steps using List.reverseRecOn with
  | nil => exact .nil
  | append_singleton steps step ih =>
      rw [ofSteps_concat]
      rcases (ofSteps steps).apply_binds step with ⟨call, method, rfl⟩ | ⟨-, kept⟩
      · exact nodup_keys_bind _ ih
      · rw [kept]
        exact ih

/-- A call was bound to a method, and has not been bound again since. -/
def BoundLast (steps : List SymbolStep) (call : Node) (method : MethodId) : Prop :=
  ∃ before after, steps = before ++ .bind call method :: after ∧ ∀ other, .bind call other ∉ after

theorem BoundLast.mem {steps : List SymbolStep} {call : Node} {method : MethodId}
    (last : BoundLast steps call method) : .bind call method ∈ steps := by
  obtain ⟨before, after, rfl, -⟩ := last
  exact List.mem_append_right _ List.mem_cons_self

theorem exists_boundLast {steps : List SymbolStep} {call : Node} (bound : call ∈ boundCalls steps) :
    ∃ last, BoundLast steps call last := by
  induction steps with
  | nil =>
      obtain ⟨method, member⟩ := bound
      exact absurd member List.not_mem_nil
  | cons step steps ih =>
      by_cases again : call ∈ boundCalls steps
      · obtain ⟨last, before, after, rfl, unbound⟩ := ih again
        exact ⟨last, step :: before, after, rfl, unbound⟩
      · obtain ⟨method, member⟩ := bound
        rcases List.mem_cons.mp member with rfl | later
        · exact ⟨method, [], steps, rfl, not_exists.mp again⟩
        · exact absurd ⟨method, later⟩ again

/-! ### Calls of one tree -/

section Calls

variable {tree : Tree} (apart : tree.CallsApart) {steps : List SymbolStep}
  (calls : ∀ call method, .bind call method ∈ steps → call.CallOf tree)

include apart calls

theorem boundMethod?_of_boundLast {call : Node} {method : MethodId}
    (last : BoundLast steps call method) : (ofSteps steps).boundMethod? call = some method := by
  have bound := calls call method last.mem
  obtain ⟨before, after, rfl, unbound⟩ := last
  rw [ofSteps_append, List.foldl_cons, boundMethod?_foldl_of_other]
  · exact (boundMethod?_bind _ call method call).trans (if_pos rfl)
  · intro other methodToo member same
    have boundToo := calls other methodToo
      (List.mem_append_right _ (List.mem_cons_of_mem _ member))
    rw [← apart.eq_of_key bound boundToo same] at member
    exact unbound methodToo member

theorem boundMethod?_of_unbound {call : Node} (found : call.CallOf tree)
    (unbound : call ∉ boundCalls steps) : (ofSteps steps).boundMethod? call = none := by
  refine boundMethod?_foldl_of_other (fun other method member same => unbound ⟨method, ?_⟩) .empty
  rw [apart.eq_of_key found (calls other method member) same]
  exact member

theorem boundMethod?_eq_some_iff {call : Node} (found : call.CallOf tree) {method : MethodId} :
    (ofSteps steps).boundMethod? call = some method ↔ BoundLast steps call method := by
  refine ⟨fun answer => ?_, boundMethod?_of_boundLast apart calls⟩
  by_cases bound : call ∈ boundCalls steps
  · obtain ⟨last, boundLast⟩ := exists_boundLast bound
    rw [boundMethod?_of_boundLast apart calls boundLast] at answer
    cases answer
    exact boundLast
  · rw [boundMethod?_of_unbound apart calls found bound] at answer
    cases answer

theorem boundMethod?_eq_none_iff {call : Node} (found : call.CallOf tree) :
    (ofSteps steps).boundMethod? call = none ↔ call ∉ boundCalls steps := by
  refine ⟨fun answer bound => ?_, boundMethod?_of_unbound apart calls found⟩
  obtain ⟨last, boundLast⟩ := exists_boundLast bound
  rw [boundMethod?_of_boundLast apart calls boundLast] at answer
  cases answer

theorem injOn_key : Set.InjOn Node.key (boundCalls steps) := by
  intro first former second latter same
  obtain ⟨method, member⟩ := former
  obtain ⟨methodToo, memberToo⟩ := latter
  exact apart.eq_of_key (calls first method member) (calls second methodToo memberToo) same

theorem bindingCount_eq : (ofSteps steps).bindingCount = (boundCalls steps).ncard := by
  have keys : Node.key '' boundCalls steps = ((ofSteps steps).bindings.map (·.1)).toFinset := by
    ext key
    rw [List.coe_toFinset]
    exact mem_keys_ofSteps_iff.symm
  rw [← (injOn_key apart calls).ncard_image, keys, Set.ncard_coe_finset,
    List.toFinset_card_of_nodup (nodup_keys_ofSteps steps), List.length_map]
  rfl

end Calls

/-- **Bindings are kept by key and tell calls apart.** Whatever a host declares and whichever calls
of a tree it binds, in any order and repeatedly: a call of the tree has the method that it was bound
to last, and none if it was not bound; there are as many bindings as bound calls; and binding a call
changes the answer for no other. In general a binding answers for the nodes of its kind and span. -/
theorem bindings_by_call {tree : Tree} (apart : tree.CallsApart) {steps : List SymbolStep}
    (calls : ∀ call method, .bind call method ∈ steps → call.CallOf tree) :
    (∀ call : Node, call.CallOf tree →
      (∀ method, (ofSteps steps).model.boundMethod? call = some method ↔
        BoundLast steps call method) ∧
      ((ofSteps steps).model.boundMethod? call = none ↔ call ∉ boundCalls steps)) ∧
    (ofSteps steps).bindingCount = (boundCalls steps).ncard ∧
    (∀ call method (other : Node), call.CallOf tree → other.CallOf tree → other ≠ call →
      (ofSteps (steps ++ [.bind call method])).model.boundMethod? other =
        (ofSteps steps).model.boundMethod? other) ∧
    ∀ call method node, (ofSteps (steps ++ [.bind call method])).model.boundMethod? node =
      if node.kind = call.kind ∧ node.span = call.span then some method
      else (ofSteps steps).model.boundMethod? node := by
  refine ⟨fun call found => ⟨fun method => ?_, ?_⟩, bindingCount_eq apart calls, ?_, ?_⟩
  · exact boundMethod?_eq_some_iff apart calls found
  · exact boundMethod?_eq_none_iff apart calls found
  · intro call method other found foundToo different
    have keys : other.key ≠ call.key :=
      fun same => different (apart.eq_of_key foundToo found same)
    rw [ofSteps_concat]
    exact (boundMethod?_bind _ call method other).trans (if_neg keys)
  · intro call method node
    rw [ofSteps_concat]
    simp only [← Node.key_eq_iff]
    exact boundMethod?_bind _ call method node

end BoundSymbols

/-! ### Calls of calls -/

namespace ChainedCalls

/-- The call `f()`. -/
def call : Element :=
  .node .invocationExpression [.node .identifierName [.token .identifier "f"],
    .node .argumentList [.token .leftParen "(", .token .rightParen ")"]]

/-- What `f()` gives is called with what `f()` gives. -/
def tree : Tree :=
  ⟨.invocationExpression, [call,
    .node .argumentList [.token .leftParen "(", .node .argument [call], .token .rightParen ")"]]⟩

/-- Binds all calls to methods of their own, and then the outermost to another. -/
def steps : List SymbolStep :=
  tree.calls.zipIdx.map (fun bound => .bind bound.1 ⟨bound.2⟩) ++ [.bind tree.root ⟨3⟩]

theorem bindings_apart : tree.CallsApart ∧
    (∀ call method, .bind call method ∈ steps → call.CallOf tree) ∧
    tree.calls.map (BoundSymbols.ofSteps steps).model.boundMethod? =
      [some ⟨3⟩, some ⟨1⟩, some ⟨2⟩] ∧
    (BoundSymbols.boundCalls steps).ncard = 3 := by
  have apart : tree.CallsApart := by decide
  have calls : ∀ call method, .bind call method ∈ steps → call.CallOf tree := by
    intro call method member
    rcases List.mem_append.mp member with first | again
    · obtain ⟨bound, listed, same⟩ := List.mem_map.mp first
      cases same
      exact Tree.mem_calls_iff.mp (List.fst_mem_of_mem_zipIdx listed)
    · cases List.mem_singleton.mp again
      exact ⟨.root, rfl⟩
  refine ⟨apart, calls, by decide, ?_⟩
  rw [← (BoundSymbols.bindings_by_call apart calls).2.1]
  decide

end ChainedCalls

end TreeLint
