import TreeLint.Tree.Element

/-!
# Building trees step by step

A parser hands over a tree as a sequence of steps: a node is opened, tokens are added, the node
last opened is closed. The builder keeps the elements that no closed node holds yet in one row, and
the open nodes as a stack: each of them knows how many elements were in the row when it was opened,
and when it is closed the elements behind these become its children. A step that cannot be taken
leaves the builder as it was, and a tree is complete when no node is open and the row holds exactly
one node.
-/

namespace TreeLint

/-- One step of building a tree. -/
inductive Step where
  | start (kind : Kind)
  | token (kind : Kind) (text : String)
  | finish
deriving Repr, DecidableEq

/-- Adds a single blank. -/
def Step.blank : Step :=
  .token (.token .whitespace) " "

def Step.identifier (text : String) : Step :=
  .token (.token .identifier) text

/-- Why a step cannot be taken or a tree is not complete. -/
inductive BuildError where
  | startOfToken (kind : TokenKind)
  | tokenOfNode (kind : NodeKind)
  | noOpenNode
  | openNode
  | noSingleNode
deriving Repr, DecidableEq

/-- The message of an error, where it has one. -/
def BuildError.message? : BuildError → Option String
  | .startOfToken kind => some s!"{kind.name} is a token kind"
  | .tokenOfNode kind => some s!"{kind.name} is a node kind"
  | .noOpenNode | .openNode | .noSingleNode => none

/-- An open node, with the number of elements that were pending when it was opened. -/
structure OpenNode where
  kind : NodeKind
  first : Nat

/-- A tree under construction: the elements that no closed node holds yet, in the order in which
they came, the open nodes, innermost first, and how many nodes are open. -/
structure Builder where
  pending : Array Element
  openNodes : List OpenNode
  depth : Nat

namespace Builder

/-- A builder that has taken no step. -/
def empty : Builder :=
  ⟨#[], [], 0⟩

def take (builder : Builder) : Step → Except BuildError Builder
  | .start (.token kind) => .error (.startOfToken kind)
  | .start (.node kind) =>
      .ok { builder with
        openNodes := ⟨kind, builder.pending.size⟩ :: builder.openNodes
        depth := builder.depth + 1 }
  | .token (.node kind) _ => .error (.tokenOfNode kind)
  | .token (.token kind) text =>
      .ok { builder with pending := builder.pending.push (.token kind text) }
  | .finish =>
      match builder.openNodes with
      | [] => .error .noOpenNode
      | opened :: openNodes =>
          let children := (builder.pending.drop opened.first).toList
          .ok {
            pending := (builder.pending.take opened.first).push (.node opened.kind children)
            openNodes
            depth := builder.depth - 1 }

/-- Takes one step if that is possible, and otherwise stays as it is. -/
def takeOrSkip (builder : Builder) (step : Step) : Builder :=
  match builder.take step with
  | .ok next => next
  | .error _ => builder

/-- The complete tree. -/
def finish (builder : Builder) : Except BuildError Tree :=
  if builder.depth ≠ 0 then .error .openNode
  else
    match builder.pending.toList with
    | [.node kind children] => .ok ⟨kind, children⟩
    | _ => .error .noSingleNode

/-- Takes steps until one cannot be taken. -/
def takeAll (builder : Builder) : List Step → Except BuildError Builder
  | [] => .ok builder
  | step :: steps => (builder.take step).bind (·.takeAll steps)

end Builder

/-- The tree that a sequence of steps builds. -/
def Tree.ofSteps (steps : List Step) : Except BuildError Tree :=
  (Builder.empty.takeAll steps).bind Builder.finish

namespace Element

mutual

/-- The steps that build an element: its spelling in preorder. -/
def steps : Element → List Step
  | .token kind text => [.token (.token kind) text]
  | .node kind children => .start (.node kind) :: (stepsOfList children ++ [.finish])

def stepsOfList : List Element → List Step
  | [] => []
  | element :: elements => element.steps ++ stepsOfList elements

end

end Element

def Tree.steps (tree : Tree) : List Step :=
  tree.element.steps

end TreeLint
