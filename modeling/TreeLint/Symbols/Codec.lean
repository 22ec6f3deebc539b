import TreeLint.Json.Decode
import TreeLint.Symbols.Table

/-!
# Symbols as JSON values

Symbols are written with their identities as numbers, together with what follows from their
declarations.
-/

namespace TreeLint

/-- The identity of a type as a JSON value. -/
def TypeId.toJson (id : TypeId) : Json :=
  .natural id.index

/-- The identity of a method as a JSON value. -/
def MethodId.toJson (id : MethodId) : Json :=
  .natural id.index

/-- Decodes the identity of a type. -/
def TypeId.ofJson (value : Json) : Except Json.Problem TypeId :=
  (Json.Decode.natural value).map TypeId.mk

/-- Decodes the identity of a method. -/
def MethodId.ofJson (value : Json) : Except Json.Problem MethodId :=
  (Json.Decode.natural value).map MethodId.mk

def TypeKind.ofJson : Json.Decoder TypeKind :=
  Json.Decode.choice variants

def TypeSymbol.toJson (type : TypeSymbol) : Json :=
  .object [
    ("name", .string type.name),
    ("kind", .string type.kind.name),
    ("is_delegate", .bool type.isDelegate),
    ("members", .ofList MethodId.toJson type.members)]

def ParameterSymbol.toJson (parameter : ParameterSymbol) : Json :=
  .object [
    ("name", .string parameter.name),
    ("ty", parameter.type.toJson),
    ("ordinal", .natural parameter.ordinal)]

def MethodSymbol.toJson (method : MethodSymbol) : Json :=
  .object [
    ("name", .string method.name),
    ("containing_type", method.containingType.toJson),
    ("arity", .natural method.arity),
    ("is_constructor", .bool method.isConstructor),
    ("display", .string method.text),
    ("parameters", .ofList ParameterSymbol.toJson method.parameters)]

end TreeLint
