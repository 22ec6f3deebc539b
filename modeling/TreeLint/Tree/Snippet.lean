import TreeLint.Tree.Element

/-!
# Trees of small snippets

For a few shapes of source code, the tree a parser would hand over, with the text noted at each.
-/

namespace TreeLint.Snippet

/-- One element of a tuple literal. -/
inductive TupleArgument where
  | named (name : String)
  | identifier (name : String)
  | memberAccess (receiver name : String)
  | conditionalAccess (receiver name : String)
  | literal (text : String)
deriving Repr, DecidableEq

/-- A single blank. -/
def blank : Element := .token .whitespace " "

def identifier (text : String) : Element := .token .identifier text

def simpleName (name : String) : Element := .node .identifierName [identifier name]

/-- A built-in type. -/
def predefinedType (name : String) : Element := .node .predefinedType [identifier name]

/-- A number. -/
def intLiteral (text : String) : Element := .node .literalExpression [.token .intLiteral text]

/-- The elements with a comma and a blank between each two of them. -/
def commaSeparated : List Element → List Element
  | [] => []
  | [element] => [element]
  | element :: elements => element :: .token .comma "," :: blank :: commaSeparated elements

/-- The elements between parentheses. -/
def parenthesized (elements : List Element) : List Element :=
  .token .leftParen "(" :: commaSeparated elements ++ [.token .rightParen ")"]

/-- A statement of one declaration, as the root of a tree. -/
def declaration (parts : List Element) : Tree :=
  ⟨.compilationUnit, [.node .localDeclarationStatement (parts ++ [.token .semicolon ";"])]⟩

/-- A statement of one expression, as the root of a tree. -/
def expression (kind : NodeKind) (parts : List Element) : Tree :=
  ⟨.compilationUnit, [.node .expressionStatement [.node kind parts, .token .semicolon ";"]]⟩

/-- The declaration `var name = value;`. -/
def assignment (name : String) (value : Element) : Tree :=
  declaration [.token .varKeyword "var", blank,
    .node .variableDeclarator [identifier name, blank, .token .equals "=", blank, value]]

/-- An element of a tuple type; an empty name leaves it unnamed. -/
def tupleElement (type name : String) : Element :=
  .node .tupleElement
    (predefinedType type :: if name.isEmpty then [] else [blank, identifier name])

/-- The tree of `(int x, int Y) value;`, from the types and names of the tuple's elements. -/
def tupleTypeDeclaration (elements : List (String × String)) : Tree :=
  declaration [
    .node .tupleType (parenthesized (elements.map fun (type, name) => tupleElement type name)),
    blank, .node .variableDeclarator [identifier "value"]]

/-- An element of a tuple literal, as an argument. -/
def tupleArgument (argument : TupleArgument) : Element :=
  .node .argument <|
    match argument with
    | .named name =>
        [.node .nameColon [simpleName name, .token .colon ":"], blank, intLiteral "1"]
    | .identifier name => [simpleName name]
    | .memberAccess receiver name =>
        [.node .memberAccessExpression [simpleName receiver, .token .dot ".", simpleName name]]
    | .conditionalAccess receiver name =>
        [.node .conditionalAccessExpression [simpleName receiver, .token .question "?",
          .node .memberBindingExpression [.token .dot ".", simpleName name]]]
    | .literal text => [intLiteral text]

/-- The tree of `var t = (x: 1, point.Y, item?.Name);`, from the elements of the literal. -/
def tupleLiteral (arguments : List TupleArgument) : Tree :=
  assignment "t" (.node .tupleExpression (parenthesized (arguments.map tupleArgument)))

def parameter (type name : String) : Element :=
  .node .parameter [predefinedType type, blank, identifier name]

/-- An anonymous method that returns two; without parameters it has no parameter list. -/
def anonymousMethod (parameters : Option (List (String × String))) : Element :=
  let list := match parameters with
    | none => []
    | some parameters =>
        [.node .parameterList
          (parenthesized (parameters.map fun (type, name) => parameter type name))]
  .node .anonymousMethodExpression <|
    .token .delegateKeyword "delegate" :: list ++
      [blank, .node .block [.token .leftBrace "\x7b", blank,
        .node .returnStatement
          [.token .returnKeyword "return", blank, intLiteral "2", .token .semicolon ";"],
        blank, .token .rightBrace "\x7d"]]

/-- The tree of `var f = delegate() { return 2; };`. -/
def delegateAssignment (parameters : Option (List (String × String))) : Tree :=
  assignment "f" (anonymousMethod parameters)

/-- An argument list of `count` arguments that has an anonymous method at `position` and names
at the other positions. -/
def argumentsWithAnonymousMethod (count position : Nat) : Element :=
  .node .argumentList <| parenthesized <| (List.range count).map fun index =>
    .node .argument
      [if index = position then anonymousMethod (some []) else simpleName s!"arg{index}"]

/-- The tree of `Run(arg0, delegate() { return 2; });`. -/
def invocationWithAnonymousMethod (method : String) (count position : Nat) : Tree :=
  expression .invocationExpression
    [simpleName method, argumentsWithAnonymousMethod count position]

/-- The tree of `new Worker(delegate() { return 2; });`. -/
def objectCreationWithAnonymousMethod (type : String) (count position : Nat) : Tree :=
  expression .objectCreationExpression [.token .newKeyword "new", blank,
    .node .namedType [identifier type], argumentsWithAnonymousMethod count position]

/-- The tree of `items[delegate() { return 2; }];`. -/
def elementAccessWithAnonymousMethod : Tree :=
  expression .elementAccessExpression [simpleName "items",
    .node .bracketedArgumentList [.token .leftBracket "[",
      .node .argument [anonymousMethod (some [])], .token .rightBracket "]"]]

/-- A quoted text as an argument of an attribute. -/
def attributeArgument (text : String) : Element :=
  .node .attributeArgument
    [.node .literalExpression [.token .stringLiteral ("\"" ++ text ++ "\"")]]

/-- The tree of `[Obsolete()] void Run() { }`; without arguments there is no argument list. -/
def attributedMethod (name : String) (arguments : Option (List String)) : Tree :=
  let list := match arguments with
    | none => []
    | some arguments =>
        [.node .attributeArgumentList (parenthesized (arguments.map attributeArgument))]
  ⟨.compilationUnit, [.node .methodDeclaration [
    .node .attributeList [.token .leftBracket "[",
      .node .attribute (simpleName name :: list), .token .rightBracket "]"],
    blank, predefinedType "void", blank, identifier "Run",
    .node .parameterList [.token .leftParen "(", .token .rightParen ")"],
    blank, .node .block [.token .leftBrace "\x7b", blank, .token .rightBrace "\x7d"]]]⟩

end TreeLint.Snippet
