/-!
# Symbols

Types and methods as declared. A type is identified by the number of its declaration, and so is a
method; the numbers of the two are independent. A table only grows: what a number stands for never
changes, apart from the members that a type gains.
-/

namespace TreeLint

/-- The identity of a type. -/
structure TypeId where
  index : Nat
deriving Repr, DecidableEq

/-- The identity of a method or constructor. -/
structure MethodId where
  index : Nat
deriving Repr, DecidableEq

/-- The kinds of types. -/
inductive TypeKind where
  | classType | structType | interface | enum | delegate | primitive
deriving Repr, DecidableEq

/-- A declared type with its members in the order of their declarations. -/
structure TypeSymbol where
  name : String
  kind : TypeKind
  members : List MethodId
deriving Repr, DecidableEq

/-- A parameter with its position in the parameter list. -/
structure ParameterSymbol where
  name : String
  type : TypeId
  ordinal : Nat
deriving Repr, DecidableEq

/-- A declared method or constructor. -/
structure MethodSymbol where
  name : String
  containingType : TypeId
  parameters : List ParameterSymbol
deriving Repr, DecidableEq

/-- The kinds of types with their written names. -/
def TypeKind.variants : List (String × TypeKind) := [
  ("Class", .classType), ("Struct", .structType), ("Interface", .interface), ("Enum", .enum),
  ("Delegate", .delegate), ("Primitive", .primitive)]

def TypeKind.name : TypeKind → String
  | .classType => "Class"
  | .structType => "Struct"
  | .interface => "Interface"
  | .enum => "Enum"
  | .delegate => "Delegate"
  | .primitive => "Primitive"

/-- Whether values of the type can be called. -/
def TypeSymbol.isDelegate (type : TypeSymbol) : Bool :=
  type.kind = .delegate

namespace MethodSymbol

/-- The name under which constructors are members of their type. -/
def constructorName : String := ".ctor"

/-- Number of parameters. -/
def arity (method : MethodSymbol) : Nat :=
  method.parameters.length

def isConstructor (method : MethodSymbol) : Bool :=
  method.name = constructorName

/-- The name and the number of parameters. -/
def text (method : MethodSymbol) : String :=
  s!"{method.name}/{method.arity}"

end MethodSymbol

/-- All declarations, in order, and an index of the types by their names, the latest first. -/
structure SymbolTable where
  types : List TypeSymbol
  methods : List MethodSymbol
  names : List (String × TypeId)
deriving Repr, DecidableEq

namespace SymbolTable

/-- A table without declarations. -/
def empty : SymbolTable :=
  ⟨[], [], []⟩

def typeByName? (table : SymbolTable) (name : String) : Option TypeId :=
  table.names.lookup name

/-- The declaration of a type. -/
def type? (table : SymbolTable) (id : TypeId) : Option TypeSymbol :=
  table.types[id.index]?

/-- The declaration of a method. -/
def method? (table : SymbolTable) (id : MethodId) : Option MethodSymbol :=
  table.methods[id.index]?

/-- Declares a type. A name that is taken declares nothing and gives the type that has it. -/
def addType (table : SymbolTable) (name : String) (kind : TypeKind) : TypeId × SymbolTable :=
  match table.typeByName? name with
  | some id => (id, table)
  | none =>
      let id : TypeId := ⟨table.types.length⟩
      (id,
        { table with
          types := table.types ++ [⟨name, kind, []⟩]
          names := (name, id) :: table.names })

def numbered (position : Nat) : List (String × TypeId) → List ParameterSymbol
  | [] => []
  | (name, type) :: parameters => ⟨name, type, position⟩ :: numbered (position + 1) parameters

/-- Declares a method. It becomes a member of its type if the type is declared. -/
def addMethod (table : SymbolTable) (containingType : TypeId) (name : String)
    (parameters : List (String × TypeId)) : MethodId × SymbolTable :=
  let id : MethodId := ⟨table.methods.length⟩
  (id,
    { table with
      types := table.types.modify containingType.index fun type =>
        { type with members := type.members ++ [id] }
      methods := table.methods ++ [⟨name, containingType, numbered 0 parameters⟩] })

/-- Declares a constructor. -/
def addConstructor (table : SymbolTable) (containingType : TypeId)
    (parameters : List (String × TypeId)) : MethodId × SymbolTable :=
  table.addMethod containingType MethodSymbol.constructorName parameters

end SymbolTable

end TreeLint
