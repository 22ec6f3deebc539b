import TreeLint.Text.Slice
import TreeLint.Tree.Kind

/-!
# Syntax trees

A tree is lossless: its tokens, blanks and comments included, spell the whole source text in
order. A tree is a node; the elements below it are tokens and further nodes. Texts and widths are
defined by recursion on the elements, together with their versions for lists of elements.

Small elements are shared: equal ones are stored once, in however many places of a tree they stand.
-/

namespace TreeLint

/-- A token with its text, or a node with the elements below it. -/
inductive Element where
  | token (kind : TokenKind) (text : String)
  | node (kind : NodeKind) (children : List Element)

namespace Element

mutual

/-- Elements are compared token by token. -/
def decEq : (first second : Element) → Decidable (first = second)
  | .token kind text, .token kindToo textToo =>
      decidable_of_iff (kind = kindToo ∧ text = textToo) (token.injEq ..).to_iff.symm
  | .node kind children, .node kindToo childrenToo =>
      have := decEqList children childrenToo
      decidable_of_iff (kind = kindToo ∧ children = childrenToo) (node.injEq ..).to_iff.symm
  | .token _ _, .node _ _ => isFalse nofun
  | .node _ _, .token _ _ => isFalse nofun

def decEqList : (first second : List Element) → Decidable (first = second)
  | [], [] => isTrue rfl
  | element :: elements, other :: others =>
      have := element.decEq other
      have := decEqList elements others
      decidable_of_iff (element = other ∧ elements = others) (List.cons.injEq ..).to_iff.symm
  | [], _ :: _ => isFalse nofun
  | _ :: _, [] => isFalse nofun

end

instance : DecidableEq Element :=
  decEq

end Element

/-- A node, as the root of a tree. -/
structure Tree where
  kind : NodeKind
  children : List Element
deriving DecidableEq

/-- A tree as an element of a larger tree. -/
def Tree.element (tree : Tree) : Element :=
  .node tree.kind tree.children

namespace Element

mutual

/-- Whether equal copies of an element are stored once: every token is shared, and so is a node with
at most three children that are all shared. -/
def isShared : Element → Bool
  | .token _ _ => true
  | .node _ children => children.length ≤ 3 && areShared children

/-- Whether all elements of a list are shared. -/
def areShared : List Element → Bool
  | [] => true
  | element :: elements => element.isShared && areShared elements

end

mutual

/-- The characters that the tokens of an element spell. -/
def chars : Element → List Char
  | .token _ text => text.toList
  | .node _ children => charsOfList children

/-- The characters that the tokens of a list of elements spell. -/
def charsOfList : List Element → List Char
  | [] => []
  | element :: elements => element.chars ++ charsOfList elements

end

/-- Number of bytes of an element's text. -/
def width (element : Element) : Nat :=
  Text.width element.chars

def kind : Element → Kind
  | .token kind _ => .token kind
  | .node kind _ => .node kind

end Element

namespace Tree

/-- The characters that the tokens of a tree spell. -/
def chars (tree : Tree) : List Char :=
  Element.charsOfList tree.children

/-- The source text that the tokens of a tree spell. -/
def text (tree : Tree) : String :=
  String.ofList tree.chars

/-- Whether equal copies of a tree are stored once. -/
def isShared (tree : Tree) : Bool :=
  tree.element.isShared

/-- Number of bytes of a tree's text. -/
def width (tree : Tree) : Nat :=
  Text.width tree.chars

end Tree

namespace Element

def isTrivia : Element → Bool
  | .token kind _ => kind.isTrivia
  | .node _ _ => false

mutual

/-- An element without the trivia tokens below it. -/
def eraseTrivia : Element → Element
  | .token kind text => .token kind text
  | .node kind children => .node kind (eraseTriviaList children)

/-- A list of elements without its trivia tokens and without those below. -/
def eraseTriviaList : List Element → List Element
  | [] => []
  | element :: elements =>
      if element.isTrivia then eraseTriviaList elements
      else element.eraseTrivia :: eraseTriviaList elements

end

end Element

end TreeLint
