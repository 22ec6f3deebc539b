import TreeLint.Cancellation
import TreeLint.Symbols.Table
import TreeLint.Tree.Node

/-!
# Semantic models

What a host knows about the meaning of a tree: the methods its calls are bound to, and the symbols
of methods and types. A model answers any query, and asking for a type may make the host raise the
signal of the pass. A table of symbols with bindings of calls is such a model; it never raises.

The members of a type that have a name are not asked of a host but looked up among its answers, by
`TreeLint.SemanticModel.membersNamed`. A host that looks them up in a way of its own, so that they
may differ from its answers about the type and its methods, is not among the models here.
-/

namespace TreeLint

/-- The answers of a host, from which all else that is asked of it is derived. -/
structure SemanticModel where
  boundMethod? : Node → Option MethodId
  method? : MethodId → Option MethodSymbol
  type? : TypeId → Option TypeSymbol
  raises : TypeId → Bool

namespace SemanticModel

def afterQuery (model : SemanticModel) (id : TypeId) (signal : Signal) : Signal :=
  if model.raises id then signal.raise else signal

/-- The members of a type that have a name, in order; none if the type is unknown. -/
def membersNamed (model : SemanticModel) (type : TypeId) (name : String) : List MethodId :=
  match model.type? type with
  | none => []
  | some symbol => symbol.members.filter fun id => (model.method? id).any (·.name = name)

end SemanticModel

/-- What bindings are keyed by: nodes of the same kind that cover the same bytes share a key. -/
structure NodeKey where
  kind : NodeKind
  span : Span
deriving Repr, DecidableEq

def Node.key (node : Node) : NodeKey :=
  ⟨node.kind, node.span⟩

/-- Symbols with the bindings of calls, the latest binding first and each key once. -/
structure BoundSymbols where
  symbols : SymbolTable
  bindings : List (NodeKey × MethodId)
deriving Repr, DecidableEq

namespace BoundSymbols

/-- No symbols and no bindings. -/
def empty : BoundSymbols :=
  ⟨.empty, []⟩

/-- Binds a call to a method, in place of an earlier binding of the same key. -/
def bind (bound : BoundSymbols) (call : Node) (method : MethodId) : BoundSymbols :=
  { bound with
    bindings := (call.key, method) :: bound.bindings.filter (·.1 ≠ call.key) }

def boundMethod? (bound : BoundSymbols) (node : Node) : Option MethodId :=
  bound.bindings.lookup node.key

/-- Number of bindings. -/
def bindingCount (bound : BoundSymbols) : Nat :=
  bound.bindings.length

/-- Symbols with bindings as a model. -/
def model (bound : BoundSymbols) : SemanticModel where
  boundMethod? := bound.boundMethod?
  method? := bound.symbols.method?
  type? := bound.symbols.type?
  raises := fun _ => false

end BoundSymbols

end TreeLint
