/-!
# Kinds of syntax

A syntax tree has two sorts of elements: tokens, which carry text, and nodes, which carry further
elements. Their kinds are two types, so that no token can claim the kind of a node or the other
way round. A kind of either sort has a name and a number; the numbers count the token kinds first.
-/

namespace TreeLint

/-- What a token is: blank text, a keyword, punctuation, or a name or literal. -/
inductive TokenKind where
  | whitespace | newline | commentLine
  | delegateKeyword | newKeyword | returnKeyword | varKeyword
  | leftParen | rightParen | leftBrace | rightBrace | leftBracket | rightBracket
  | comma | colon | semicolon | dot | question | equals | fatArrow
  | identifier | intLiteral | stringLiteral
deriving Repr, DecidableEq

/-- What a node is: a type, an expression or part of one, an attribute, a statement or
declaration, or the debris of a failed parse. -/
inductive NodeKind where
  | predefinedType | namedType | tupleType | tupleElement
  | identifierName | literalExpression | memberAccessExpression
  | conditionalAccessExpression | memberBindingExpression | invocationExpression
  | objectCreationExpression | elementAccessExpression | tupleExpression
  | parenthesizedExpression | anonymousMethodExpression | parenthesizedLambdaExpression
  | argumentList | bracketedArgumentList | argument | nameColon | parameterList | parameter
  | attributeList | attribute | attributeArgumentList | attributeArgument
  | compilationUnit | block | returnStatement | expressionStatement | localDeclarationStatement
  | variableDeclarator | methodDeclaration
  | error
deriving Repr, DecidableEq

/-- The kind of a tree element of either sort. -/
inductive Kind where
  | token (kind : TokenKind)
  | node (kind : NodeKind)
deriving Repr, DecidableEq

namespace TokenKind

/-- Every token kind in the order of the numbering. -/
def all : List TokenKind := [
  .whitespace, .newline, .commentLine, .delegateKeyword, .newKeyword, .returnKeyword,
  .varKeyword, .leftParen, .rightParen, .leftBrace, .rightBrace, .leftBracket, .rightBracket,
  .comma, .colon, .semicolon, .dot, .question, .equals, .fatArrow, .identifier, .intLiteral,
  .stringLiteral]

def name : TokenKind → String
  | .whitespace => "Whitespace"
  | .newline => "Newline"
  | .commentLine => "CommentLine"
  | .delegateKeyword => "DelegateKw"
  | .newKeyword => "NewKw"
  | .returnKeyword => "ReturnKw"
  | .varKeyword => "VarKw"
  | .leftParen => "LParen"
  | .rightParen => "RParen"
  | .leftBrace => "LBrace"
  | .rightBrace => "RBrace"
  | .leftBracket => "LBracket"
  | .rightBracket => "RBracket"
  | .comma => "Comma"
  | .colon => "Colon"
  | .semicolon => "Semicolon"
  | .dot => "Dot"
  | .question => "Question"
  | .equals => "Eq"
  | .fatArrow => "FatArrow"
  | .identifier => "Ident"
  | .intLiteral => "IntLiteral"
  | .stringLiteral => "StringLiteral"

/-- Trivia carries no meaning: blanks, line ends and comments. -/
def isTrivia : TokenKind → Bool
  | .whitespace | .newline | .commentLine => true
  | _ => false

end TokenKind

namespace NodeKind

/-- Every node kind in the order of the numbering. -/
def all : List NodeKind := [
  .predefinedType, .namedType, .tupleType, .tupleElement, .identifierName, .literalExpression,
  .memberAccessExpression, .conditionalAccessExpression, .memberBindingExpression,
  .invocationExpression, .objectCreationExpression, .elementAccessExpression, .tupleExpression,
  .parenthesizedExpression, .anonymousMethodExpression, .parenthesizedLambdaExpression,
  .argumentList, .bracketedArgumentList, .argument, .nameColon, .parameterList, .parameter,
  .attributeList, .attribute, .attributeArgumentList, .attributeArgument, .compilationUnit,
  .block, .returnStatement, .expressionStatement, .localDeclarationStatement,
  .variableDeclarator, .methodDeclaration, .error]

def name : NodeKind → String
  | .predefinedType => "PredefinedType"
  | .namedType => "NamedType"
  | .tupleType => "TupleType"
  | .tupleElement => "TupleElement"
  | .identifierName => "IdentifierName"
  | .literalExpression => "LiteralExpression"
  | .memberAccessExpression => "MemberAccessExpression"
  | .conditionalAccessExpression => "ConditionalAccessExpression"
  | .memberBindingExpression => "MemberBindingExpression"
  | .invocationExpression => "InvocationExpression"
  | .objectCreationExpression => "ObjectCreationExpression"
  | .elementAccessExpression => "ElementAccessExpression"
  | .tupleExpression => "TupleExpression"
  | .parenthesizedExpression => "ParenthesizedExpression"
  | .anonymousMethodExpression => "AnonymousMethodExpression"
  | .parenthesizedLambdaExpression => "ParenthesizedLambdaExpression"
  | .argumentList => "ArgumentList"
  | .bracketedArgumentList => "BracketedArgumentList"
  | .argument => "Argument"
  | .nameColon => "NameColon"
  | .parameterList => "ParameterList"
  | .parameter => "Parameter"
  | .attributeList => "AttributeList"
  | .attribute => "Attribute"
  | .attributeArgumentList => "AttributeArgumentList"
  | .attributeArgument => "AttributeArgument"
  | .compilationUnit => "CompilationUnit"
  | .block => "Block"
  | .returnStatement => "ReturnStatement"
  | .expressionStatement => "ExpressionStatement"
  | .localDeclarationStatement => "LocalDeclarationStatement"
  | .variableDeclarator => "VariableDeclarator"
  | .methodDeclaration => "MethodDeclaration"
  | .error => "Error"

end NodeKind

namespace Kind

/-- Every kind in the order of the numbering: token kinds, then node kinds. -/
def all : List Kind :=
  TokenKind.all.map .token ++ NodeKind.all.map .node

def name : Kind → String
  | .token kind => kind.name
  | .node kind => kind.name

def number (kind : Kind) : Nat :=
  all.idxOf kind

/-- The kind with a number, if there is one. -/
def ofNumber? (number : Nat) : Option Kind :=
  all[number]?

/-- The kind with a written name, if there is one. -/
def ofName? (name : String) : Option Kind :=
  all.find? (·.name == name)

/-- Whether elements of this kind are tokens. -/
def isToken : Kind → Bool
  | .token _ => true
  | .node _ => false

/-- Whether elements of this kind are trivia. -/
def isTrivia : Kind → Bool
  | .token kind => kind.isTrivia
  | .node _ => false

end Kind

end TreeLint
