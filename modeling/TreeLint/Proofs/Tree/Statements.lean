import TreeLint.Proofs.Tree.Kinds
import TreeLint.Proofs.Tree.Shifting
import TreeLint.Tree.Snippet

/-!
# Snippets of one statement

A snippet is a single statement. The text, the kinds of the nodes and the places of the parts are
those of the parts of the statement; in particular the value that a variable is declared with stands
behind the text `var name = ` (`TreeLint.Snippet.exists_value`).
-/

namespace TreeLint.Snippet

open Element

theorem nodeKinds_declaration (parts : List Element) :
    (declaration parts).element.nodeKinds =
      .compilationUnit :: .localDeclarationStatement :: nodeKindsOfList parts := by
  change NodeKind.compilationUnit :: ((.localDeclarationStatement ::
    nodeKindsOfList (parts ++ [.token .semicolon ";"])) ++ []) = _
  rw [List.append_nil, nodeKindsOfList_append]
  exact congrArg (fun kinds => NodeKind.compilationUnit :: .localDeclarationStatement :: kinds)
    (List.append_nil _)

theorem chars_declaration (parts : List Element) :
    (declaration parts).chars = charsOfList parts ++ [';'] := by
  change charsOfList (parts ++ [.token .semicolon ";"]) ++ [] = _
  rw [List.append_nil, charsOfList_append]
  rfl

theorem exists_part (front : List Element) (kind : NodeKind) (children back : List Element) :
    ∃ part : Node, part.Placed (declaration (front ++ .node kind children :: back)) ∧
      part.tree = ⟨kind, children⟩ ∧ part.start = Text.width (charsOfList front) := by
  have top : (declaration (front ++ .node kind children :: back)).root.Placed _ := .root
  obtain ⟨statement, placed, tree, start, -⟩ := top.exists_child [] rfl
  obtain ⟨part, placed, partTree, behind, -⟩ := placed.exists_child front
    ((congrArg Tree.children tree).trans (List.append_assoc ..))
  refine ⟨part, placed, partTree, ?_⟩
  rw [behind, start]
  exact Nat.zero_add _

/-! ### Declarations with a value -/

theorem nodeKinds_assignment (name : String) (value : Element) :
    (assignment name value).element.nodeKinds =
      [.compilationUnit, .localDeclarationStatement, .variableDeclarator] ++ value.nodeKinds := by
  rw [assignment, nodeKinds_declaration]
  change _ :: _ :: ((NodeKind.variableDeclarator :: (value.nodeKinds ++ [])) ++ []) = _
  rw [List.append_nil, List.append_nil]
  rfl

theorem chars_assignment (name : String) (value : Element) :
    (assignment name value).chars = ("var " ++ name ++ " = ").toList ++ value.chars ++ [';'] := by
  rw [assignment, chars_declaration, String.toList_append, String.toList_append]
  change "var ".toList ++ ((name.toList ++ (" = ".toList ++ (value.chars ++ []))) ++ []) ++
    [';'] = _
  rw [List.append_nil, List.append_nil, List.append_assoc, List.append_assoc, List.append_assoc,
    List.append_assoc, List.append_assoc, List.append_assoc]

theorem exists_value (name : String) (kind : NodeKind) (children : List Element) :
    ∃ value : Node, value.Placed (assignment name (.node kind children)) ∧
      value.tree = ⟨kind, children⟩ ∧
      value.start = Text.width ("var " ++ name ++ " = ").toList := by
  obtain ⟨declarator, placed, tree, start⟩ := exists_part [.token .varKeyword "var", blank]
    .variableDeclarator [identifier name, blank, .token .equals "=", blank, .node kind children] []
  obtain ⟨value, placed, valueTree, behind, -⟩ := placed.exists_child
    [identifier name, blank, .token .equals "=", blank] (congrArg Tree.children tree)
  refine ⟨value, placed, valueTree, ?_⟩
  rw [behind, start, String.toList_append, String.toList_append, ← Text.width_append,
    List.append_assoc]
  rfl

/-! ### Expressions -/

theorem nodeKinds_expression (kind : NodeKind) (parts : List Element) :
    (expression kind parts).element.nodeKinds =
      .compilationUnit :: .expressionStatement :: kind :: nodeKindsOfList parts := by
  change NodeKind.compilationUnit ::
    ((.expressionStatement :: ((kind :: nodeKindsOfList parts) ++ [])) ++ []) = _
  rw [List.append_nil, List.append_nil]

theorem exists_expression (kind : NodeKind) (parts : List Element) :
    ∃ node : Node, node.Placed (expression kind parts) ∧ node.tree = ⟨kind, parts⟩ := by
  have top : (expression kind parts).root.Placed _ := .root
  obtain ⟨statement, placed, tree, -, -⟩ := top.exists_child [] rfl
  obtain ⟨node, placed, tree, -, -⟩ := placed.exists_child [] (congrArg Tree.children tree)
  exact ⟨node, placed, tree⟩

theorem chars_expression (kind : NodeKind) (parts : List Element) :
    (expression kind parts).chars = charsOfList parts ++ [';'] := by
  change (charsOfList parts ++ [';']) ++ [] = _
  rw [List.append_nil]

end TreeLint.Snippet
