import TreeLint.Tree.Node

/-!
# Typed views of nodes

A view is a node in place whose kind is known, and its accessors find the parts that a node of
that kind is expected to have. Trees may be malformed, so that parts are missing, repeated or
misplaced; each accessor says which child it takes, and answers `none` when there is no such child.
-/

namespace TreeLint

/-- A node in place of a known kind. -/
structure View (kind : NodeKind) where
  node : Node
  kind_eq : node.kind = kind

/-- The node as a view of a kind, if it has that kind. -/
def Node.as? (node : Node) (kind : NodeKind) : Option (View kind) :=
  if matching : node.kind = kind then some ⟨node, matching⟩ else none

/-- The child nodes of a kind. -/
def Node.childrenAs (node : Node) (kind : NodeKind) : List (View kind) :=
  node.children.filterMap (·.as? kind)

/-- The first child node of a kind. -/
def Node.childAs? (node : Node) (kind : NodeKind) : Option (View kind) :=
  node.children.findSome? (·.as? kind)

/-! ### Expressions -/

/-- The forms of expressions. -/
inductive ExpressionForm where
  | identifierName | literal | memberAccess | conditionalAccess | memberBinding | invocation
  | objectCreation | elementAccess | tuple | parenthesized | anonymousMethod | lambda
deriving Repr, DecidableEq

def ExpressionForm.name : ExpressionForm → String
  | .identifierName => "IdentifierName"
  | .literal => "Literal"
  | .memberAccess => "MemberAccess"
  | .conditionalAccess => "ConditionalAccess"
  | .memberBinding => "MemberBinding"
  | .invocation => "Invocation"
  | .objectCreation => "ObjectCreation"
  | .elementAccess => "ElementAccess"
  | .tuple => "Tuple"
  | .parenthesized => "Parenthesized"
  | .anonymousMethod => "AnonymousMethod"
  | .lambda => "Lambda"

/-- The form of the expressions of a kind, if nodes of the kind are expressions. -/
def NodeKind.expressionForm? : NodeKind → Option ExpressionForm
  | .identifierName => some .identifierName
  | .literalExpression => some .literal
  | .memberAccessExpression => some .memberAccess
  | .conditionalAccessExpression => some .conditionalAccess
  | .memberBindingExpression => some .memberBinding
  | .invocationExpression => some .invocation
  | .objectCreationExpression => some .objectCreation
  | .elementAccessExpression => some .elementAccess
  | .tupleExpression => some .tuple
  | .parenthesizedExpression => some .parenthesized
  | .anonymousMethodExpression => some .anonymousMethod
  | .parenthesizedLambdaExpression => some .lambda
  | _ => none

/-- The forms of nodes that bind to a method, constructor or indexer when called. -/
inductive CallForm where
  | invocation | objectCreation | elementAccess
deriving Repr, DecidableEq

def CallForm.name : CallForm → String
  | .invocation => "Invocation"
  | .objectCreation => "ObjectCreation"
  | .elementAccess => "ElementAccess"

/-- The form of the calls of a kind, if nodes of the kind are calls. -/
def NodeKind.callForm? : NodeKind → Option CallForm
  | .invocationExpression => some .invocation
  | .objectCreationExpression => some .objectCreation
  | .elementAccessExpression => some .elementAccess
  | _ => none

def Element.isExpression (element : Element) : Bool :=
  match element with
  | .token _ _ => false
  | .node kind _ => kind.expressionForm?.isSome

/-- The text of the first identifier among the elements. -/
def Element.identifierText? (elements : List Element) : Option String :=
  elements.findSome? fun
    | .token .identifier text => some text
    | _ => none

/-- The children of the element, if it is a simple name. -/
def Element.simpleName? : Element → Option (List Element)
  | .node .identifierName children => some children
  | _ => none

/-- The child nodes that are expressions. -/
def Node.expressions (node : Node) : List Node :=
  node.children.filter (·.kind.expressionForm?.isSome)

namespace Element

mutual

/-- The name a tuple element takes over from an expression: a simple name gives itself, a member
access the name it ends with, and a conditional access what its second expression gives. Other
expressions give no name. -/
def inferredName? : Element → Option String
  | .token _ _ => none
  | .node .identifierName children => identifierText? children
  | .node .memberAccessExpression children =>
      (children.filterMap simpleName?).getLast?.bind identifierText?
  | .node .conditionalAccessExpression children => inferredNameOfNth? 1 children
  | .node .memberBindingExpression children =>
      (children.findSome? simpleName?).bind identifierText?
  | .node _ _ => none

/-- The name taken over from the expression that has `skipped` expressions before it. -/
def inferredNameOfNth? (skipped : Nat) : List Element → Option String
  | [] => none
  | element :: elements =>
      if element.isExpression then
        match skipped with
        | 0 => element.inferredName?
        | skipped + 1 => inferredNameOfNth? skipped elements
      else inferredNameOfNth? skipped elements

end

end Element

/-- The name a tuple element takes over from a node. -/
def Node.inferredName? (node : Node) : Option String :=
  node.tree.element.inferredName?

/-! ### Views by kind -/

abbrev TupleType := View .tupleType
abbrev TupleElement := View .tupleElement
abbrev TupleExpression := View .tupleExpression
abbrev Argument := View .argument
abbrev NameColon := View .nameColon
abbrev IdentifierName := View .identifierName
abbrev MemberAccess := View .memberAccessExpression
abbrev ConditionalAccess := View .conditionalAccessExpression
abbrev MemberBinding := View .memberBindingExpression
abbrev AnonymousMethod := View .anonymousMethodExpression
abbrev ParameterList := View .parameterList
abbrev Parameter := View .parameter
abbrev Attribute := View .attribute
abbrev AttributeArgumentList := View .attributeArgumentList

def TupleType.elements (tuple : TupleType) : List TupleElement :=
  tuple.node.childrenAs .tupleElement

/-- The first child node, which is the element's type unless that is written as a bare name. -/
def TupleElement.type? (element : TupleElement) : Option Node :=
  element.node.children.head?

/-- The token that names the element: the first identifier among the children after the first
child that is no trivia. -/
def TupleElement.name? (element : TupleElement) : Option Token :=
  (((element.node.parts.filter (!·.kind.isTrivia)).drop 1).filterMap Part.token?).find?
    (·.kind == .identifier)

/-- The arguments among the children: of a tuple literal or of an argument list. -/
def Node.arguments (node : Node) : List Argument :=
  node.childrenAs .argument

/-- The position of an argument among the arguments of a node: the first one that is the same node
counts. -/
def Node.positionOf? (node : Node) (argument : Argument) : Option Nat :=
  node.arguments.findIdx? (·.node.Same argument.node)

/-- The name label of an argument. -/
def Argument.nameColon? (argument : Argument) : Option NameColon :=
  argument.node.childAs? .nameColon

/-- The first expression of an argument. -/
def Argument.expression? (argument : Argument) : Option Node :=
  argument.node.expressions.head?

/-- The first identifier below a name label, at any depth. -/
def NameColon.name? (label : NameColon) : Option Token :=
  (label.node.preorder.filterMap Part.token?).find? (·.kind == .identifier)

/-- The identifier of a simple name. -/
def IdentifierName.token? (name : IdentifierName) : Option Token :=
  name.node.childToken? .identifier

/-- The text of a simple name. -/
def IdentifierName.text? (name : IdentifierName) : Option String :=
  Element.identifierText? name.node.tree.children

/-- The first expression of a member access. -/
def MemberAccess.receiver? (access : MemberAccess) : Option Node :=
  access.node.expressions.head?

/-- The name a member access ends with: its last simple name. -/
def MemberAccess.name? (access : MemberAccess) : Option IdentifierName :=
  (access.node.childrenAs .identifierName).getLast?

/-- The first expression of a conditional access. -/
def ConditionalAccess.receiver? (access : ConditionalAccess) : Option Node :=
  access.node.expressions.head?

/-- The expression evaluated when the receiver is present: the second expression. -/
def ConditionalAccess.whenPresent? (access : ConditionalAccess) : Option Node :=
  access.node.expressions[1]?

/-- The first simple name of a member binding. -/
def MemberBinding.name? (binding : MemberBinding) : Option IdentifierName :=
  binding.node.childAs? .identifierName

/-- The first parameter list among the children: of an anonymous method or a lambda. -/
def Node.parameterList? (node : Node) : Option ParameterList :=
  node.childAs? .parameterList

def AnonymousMethod.body? (anonymous : AnonymousMethod) : Option Node :=
  (anonymous.node.childAs? .block).map (·.node)

def ParameterList.parameters (list : ParameterList) : List Parameter :=
  list.node.childrenAs .parameter

/-- The token that names a parameter: its first identifier. -/
def Parameter.name? (parameter : Parameter) : Option Token :=
  parameter.node.childToken? .identifier

/-- The text of the first simple name of an attribute that has one. -/
def Attribute.name? (attr : Attribute) : Option String :=
  (attr.node.childrenAs .identifierName).findSome? IdentifierName.text?

def Attribute.argumentList? (attr : Attribute) : Option AttributeArgumentList :=
  attr.node.childAs? .attributeArgumentList

/-- The arguments of an attribute's argument list. -/
def AttributeArgumentList.arguments (list : AttributeArgumentList) :
    List (View .attributeArgument) :=
  list.node.childrenAs .attributeArgument

end TreeLint
