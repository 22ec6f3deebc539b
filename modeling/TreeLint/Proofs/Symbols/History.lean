import TreeLint.Proofs.Symbols.Verdict

/-!
# How symbols come about

A host fills a table step by step: it declares types, methods and constructors, and it binds calls,
in any order. However it does so, the positions of the parameters of all methods are their indexes
(`TreeLint.BoundSymbols.ofSteps_numbered`).
-/

namespace TreeLint

/-- What a host does to a table of symbols. -/
inductive SymbolStep where
  | addType (name : String) (kind : TypeKind)
  | addMethod (containingType : TypeId) (name : String) (parameters : List (String × TypeId))
  | addConstructor (containingType : TypeId) (parameters : List (String × TypeId))
  | bind (call : Node) (method : MethodId)

/-- The positions of all parameters of a table are their indexes. -/
def SymbolTable.Numbered (table : SymbolTable) : Prop :=
  ∀ method ∈ table.methods, ∀ (index : Nat) (parameter : ParameterSymbol),
    method.parameters[index]? = some parameter → parameter.ordinal = index

namespace SymbolTable

theorem ordinal_of_numbered {first index : Nat} {parameters : List (String × TypeId)}
    {parameter : ParameterSymbol} (found : (numbered first parameters)[index]? = some parameter) :
    parameter.ordinal = first + index := by
  induction parameters generalizing first index with
  | nil => exact nomatch found
  | cons declared parameters ih =>
      cases index with
      | zero =>
          cases found
          rfl
      | succ index =>
          rw [ih found, Nat.add_right_comm, Nat.add_assoc]

theorem Numbered.addType {table : SymbolTable} (known : table.Numbered) (name : String)
    (kind : TypeKind) : (table.addType name kind).2.Numbered := by
  unfold SymbolTable.addType
  split
  · exact known
  · exact known

theorem Numbered.addMethod {table : SymbolTable} (known : table.Numbered)
    (containingType : TypeId) (name : String) (parameters : List (String × TypeId)) :
    (table.addMethod containingType name parameters).2.Numbered := by
  intro method member index parameter found
  rcases List.mem_append.mp member with old | new
  · exact known method old index parameter found
  · cases List.mem_singleton.mp new
    rw [ordinal_of_numbered found, Nat.zero_add]

end SymbolTable

namespace BoundSymbols

/-- The symbols and bindings after a step. -/
def apply (bound : BoundSymbols) : SymbolStep → BoundSymbols
  | .addType name kind => { bound with symbols := (bound.symbols.addType name kind).2 }
  | .addMethod containingType name parameters =>
      { bound with symbols := (bound.symbols.addMethod containingType name parameters).2 }
  | .addConstructor containingType parameters =>
      { bound with symbols := (bound.symbols.addConstructor containingType parameters).2 }
  | .bind call method => bound.bind call method

/-- The symbols and bindings that a host arrives at. -/
def ofSteps (steps : List SymbolStep) : BoundSymbols :=
  steps.foldl apply .empty

theorem apply_numbered {bound : BoundSymbols} (known : bound.symbols.Numbered)
    (step : SymbolStep) : (bound.apply step).symbols.Numbered := by
  cases step with
  | addType name kind => exact known.addType name kind
  | addMethod containingType name parameters => exact known.addMethod containingType name parameters
  | addConstructor containingType parameters => exact known.addMethod containingType _ parameters
  | bind call method => exact known

theorem foldl_numbered {bound : BoundSymbols} (known : bound.symbols.Numbered)
    (steps : List SymbolStep) : (steps.foldl apply bound).symbols.Numbered := by
  induction steps generalizing bound with
  | nil => exact known
  | cons step steps ih => exact ih (apply_numbered known step)

/-- Each step keeps the numbering, and so do all steps together. -/
theorem ofSteps_numbered (steps : List SymbolStep) : (ofSteps steps).model.Numbered := by
  intro id method declared
  have numbered : (ofSteps steps).symbols.Numbered := by
    apply foldl_numbered
    intro method member
    exact absurd member List.not_mem_nil
  exact numbered method (List.mem_of_getElem? declared)

end BoundSymbols

end TreeLint
