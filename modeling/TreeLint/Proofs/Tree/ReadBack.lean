import TreeLint.Proofs.Correspondence
import TreeLint.Proofs.Tree.Sameness
import TreeLint.Proofs.Tree.Separated
import TreeLint.Proofs.Tree.Statements

/-!
# What is read back from the trees of snippets

The trees of snippets are made from names and numbers, and the accessors give these back
(`TreeLint.Snippet.accessors_read_back`): how many arguments a call has and which of them is the
anonymous method, the names of the parameters of an anonymous method, and the name of an attribute
with the number of its arguments.
-/

namespace TreeLint

/-- The name among the children of a node is the text of the first identifier among them. -/
theorem Node.text_childToken? (node : Node) :
    (node.childToken? .identifier).map (·.text) = Element.identifierText? node.tree.children := by
  suffices below : ∀ (index start : Nat) (elements : List Element),
      (((node.placeChildren index start elements).filterMap Part.token?).find?
        (·.kind == .identifier)).map (·.text) = Element.identifierText? elements from
    below 0 node.start node.tree.children
  intro index start elements
  induction elements generalizing index start with
  | nil => rfl
  | cons element elements ih =>
      cases element with
      | node kind children => exact ih _ _
      | token kind text =>
          cases kind with
          | identifier => rfl
          | _ => exact ih _ _

namespace Snippet

open Element

/-! ### Arguments of calls -/

/-- The argument that a call with an anonymous method at a position has at an index. -/
def callArgument (position index : Nat) : Element :=
  .node .argument
    [if index = position then anonymousMethod (some []) else simpleName s!"arg{index}"]

/-- The text of the argument at an index. -/
def callArgumentText (position index : Nat) : String :=
  if index = position then "delegate() \x7b return 2; \x7d" else s!"arg{index}"

theorem chars_callArgument (position index : Nat) :
    (callArgument position index).chars = (callArgumentText position index).toList := by
  unfold callArgument callArgumentText
  split
  · decide
  · rw [chars, charsOfList, charsOfList, List.append_nil, simpleName, chars, charsOfList,
      charsOfList, List.append_nil]
    rfl

/-- Every argument has text, so that it is no other argument of its list. -/
theorem callArgumentText_ne (position index : Nat) : callArgumentText position index ≠ "" := by
  unfold callArgumentText
  split
  · decide
  · intro nothing
    have chars := congrArg String.toList nothing
    rw [String.toList_append] at chars
    exact List.cons_ne_nil _ _ chars

theorem nodeKinds_callArgument (position index : Nat) :
    (callArgument position index).nodeKinds = .argument ::
      if index = position then [.anonymousMethodExpression, .parameterList, .block,
        .returnStatement, .literalExpression] else [.identifierName] := by
  unfold callArgument
  split <;> rfl

/-- Among the kinds of the arguments there is one anonymous method if its position is among them. -/
theorem count_callArguments (position count : Nat) :
    (nodeKindsOfList (parenthesized ((List.range count).map (callArgument position)))).count
      .anonymousMethodExpression = if position < count then 1 else 0 := by
  rw [nodeKinds_parenthesized]
  induction count with
  | zero => rfl
  | succ count ih =>
      rw [List.range_succ, List.map_append, List.flatMap_append, List.count_append, ih]
      change _ + ((callArgument position count).nodeKinds ++ []).count _ = _
      rw [List.append_nil, nodeKinds_callArgument]
      by_cases last : count = position
      · rw [if_pos last, last, if_neg (Nat.lt_irrefl position), if_pos (Nat.lt_succ_self position)]
        rfl
      · have same : position < count ↔ position < count + 1 := by omega
        rw [if_neg last, if_congr same rfl rfl]
        rfl

theorem isArgument_of_mem {position count : Nat} {argument : Element}
    (member : argument ∈ (List.range count).map (callArgument position)) :
    argument.kind = .node .argument := by
  obtain ⟨index, -, rfl⟩ := List.mem_map.mp member
  rfl

theorem count_argumentList_of_mem {position count : Nat} {argument : Element}
    (member : argument ∈ (List.range count).map (callArgument position)) :
    argument.nodeKinds.count .argumentList = 0 := by
  obtain ⟨index, -, rfl⟩ := List.mem_map.mp member
  rw [nodeKinds_callArgument]
  split
  · rfl
  · rfl

/-! ### Calls -/

/-- A call whose list of arguments has an anonymous method at a position. -/
def callWith (kind : NodeKind) (callee : List Element) (count position : Nat) : Tree :=
  expression kind (callee ++ [argumentsWithAnonymousMethod count position])

theorem nodeKinds_callWith (kind : NodeKind) (callee : List Element) (count position : Nat) :
    (callWith kind callee count position).element.nodeKinds =
      .compilationUnit :: .expressionStatement :: kind :: nodeKindsOfList callee ++ .argumentList ::
        nodeKindsOfList (parenthesized ((List.range count).map (callArgument position))) := by
  have list : nodeKindsOfList [argumentsWithAnonymousMethod count position] = .argumentList ::
      nodeKindsOfList (parenthesized ((List.range count).map (callArgument position))) :=
    List.append_nil _
  rw [callWith, nodeKinds_expression, nodeKindsOfList_append, list]
  rfl

theorem text_callWith (kind : NodeKind) {callee : List Element} {front : String}
    (spelled : charsOfList callee = front.toList) (count position : Nat) :
    (callWith kind callee count position).text =
      front ++ "(" ++ ", ".intercalate ((List.range count).map (callArgumentText position)) ++
        ");" := by
  have arguments : ((List.range count).map (callArgument position)).map chars =
      ((List.range count).map (callArgumentText position)).map String.toList := by
    rw [List.map_map, List.map_map]
    exact List.map_congr_left fun index _ => chars_callArgument position index
  have list : charsOfList [argumentsWithAnonymousMethod count position] =
      '(' :: [',', ' '].intercalate
        (((List.range count).map (callArgument position)).map chars) ++ [')'] := by
    rw [← chars_parenthesized]
    exact List.append_nil _
  refine String.toList_inj.mp ?_
  rw [Tree.text, String.toList_ofList, callWith, chars_expression, charsOfList_append, spelled,
    list, arguments, String.toList_append, String.toList_append, String.toList_append,
    String.toList_intercalate]
  simp

theorem text_ne_of_argument {list : Node} {count position index : Nat} {argument : Argument}
    (elements : list.arguments.map (·.node.tree.element) =
      (List.range count).map (callArgument position))
    (found : list.arguments[index]? = some argument) : argument.node.text ≠ "" := by
  have there := congrArg (·[index]?) elements
  rw [List.getElem?_map, List.getElem?_map, found] at there
  obtain ⟨_, -, element⟩ := Option.map_eq_some_iff.mp there.symm
  have spelled : argument.node.tree.chars = (callArgument position _).chars :=
    (congrArg chars element).symm
  rw [Node.text, Tree.text, spelled, chars_callArgument, String.ofList_toList]
  exact callArgumentText_ne position _

/-- At its position a list of arguments has the anonymous method. -/
theorem exists_argument_at {list : Node} {count position : Nat}
    (elements : list.arguments.map (·.node.tree.element) =
      (List.range count).map (callArgument position)) (within : position < count) :
    ∃ argument, list.arguments[position]? = some argument ∧
      argument.node.tree.children = [anonymousMethod (some [])] := by
  have there := congrArg (·[position]?) elements
  rw [List.getElem?_map, List.getElem?_map, List.getElem?_range within] at there
  obtain ⟨argument, found, element⟩ := Option.map_eq_some_iff.mp there
  have children := (Element.node.inj element).2
  rw [if_pos rfl] at children
  exact ⟨argument, found, children⟩

/-- A tree is read back as a call of a form: what stands in front of the arguments, and how many of
these there are in its only list, with an anonymous method at a position. -/
structure ReadsCall (tree : Tree) (front : String) (form : CallForm) (count position : Nat)
    (list : Node) : Prop where
  text : tree.text = front ++ "(" ++
    ", ".intercalate ((List.range count).map (callArgumentText position)) ++ ");"
  single : tree.nodesOf .argumentList = [list]
  called : ∃ call, list.parent? = some call ∧ call.kind.callForm? = some form
  length : list.arguments.length = count
  positions : ∀ index argument, list.arguments[index]? = some argument →
    list.positionOf? argument = some index
  inside : position < count → ∃ method argument,
    tree.nodesOf .anonymousMethodExpression = [method] ∧ method.parent? = some argument.node ∧
      argument.node.parent? = some list ∧ list.positionOf? argument = some position
  outside : count ≤ position → tree.nodesOf .anonymousMethodExpression = []

/-- A call is read back if no list and no anonymous method stands in front of its list. -/
theorem exists_readsCall {kind : NodeKind} {form : CallForm} (called : kind.callForm? = some form)
    {callee : List Element} {front : String} (spelled : charsOfList callee = front.toList)
    (noList : (NodeKind.compilationUnit :: .expressionStatement :: kind ::
      nodeKindsOfList callee).count .argumentList = 0)
    (noMethod : (NodeKind.compilationUnit :: .expressionStatement :: kind ::
      nodeKindsOfList callee).count .anonymousMethodExpression = 0) (count position : Nat) :
    ∃ list, ReadsCall (callWith kind callee count position) front form count position list := by
  have lists : (callWith kind callee count position).element.nodeKinds.count .argumentList = 1 := by
    rw [nodeKinds_callWith, List.count_append, noList, List.count_cons_self,
      count_parenthesized fun argument => count_argumentList_of_mem]
  have methods : (callWith kind callee count position).element.nodeKinds.count
      .anonymousMethodExpression = if position < count then 1 else 0 := by
    rw [nodeKinds_callWith, List.count_append, noMethod, List.count_cons_of_ne (by decide),
      count_callArguments, Nat.zero_add]
  obtain ⟨call, placed, tree⟩ :=
    exists_expression kind (callee ++ [argumentsWithAnonymousMethod count position])
  obtain ⟨list, placed, listTree, -, above⟩ :=
    placed.exists_child callee (congrArg Tree.children tree)
  have elements : list.arguments.map (·.node.tree.element) =
      (List.range count).map (callArgument position) :=
    elements_childrenAs_parenthesized (congrArg Tree.children listTree) fun argument =>
      isArgument_of_mem
  have size : list.arguments.length = count := by
    have lengths := congrArg List.length elements
    rw [List.length_map, List.length_map, List.length_range] at lengths
    exact lengths
  have isCall : call.kind.callForm? = some form := by
    rw [Node.kind, tree]
    exact called
  have isList : list.kind = .argumentList := congrArg Tree.kind listTree
  have text := text_callWith kind spelled count position
  refine ⟨list, ⟨text, Tree.nodesOf_eq_singleton placed isList lists, ⟨call, above, isCall⟩, size,
    fun index argument found =>
      Node.positionOf?_getElem? found (text_ne_of_argument elements found), ?_, ?_⟩⟩
  · intro within
    rw [if_pos within] at methods
    obtain ⟨argument, found, split⟩ := exists_argument_at elements within
    have member := Node.mem_children_of_childrenAs (List.mem_of_getElem? found)
    obtain ⟨method, methodPlaced, methodTree, -, under⟩ :=
      (Node.Placed.child placed member).exists_child [] split
    exact ⟨method, argument, Tree.nodesOf_eq_singleton methodPlaced
      (congrArg Tree.kind methodTree) methods, under, Node.parent?_of_mem_children member,
      Node.positionOf?_getElem? found (text_ne_of_argument elements found)⟩
  · intro beyond
    rw [if_neg (Nat.not_lt.mpr beyond)] at methods
    exact Tree.nodesOf_eq_nil methods

theorem reads_invocation (method : String) (count position : Nat) :
    ∃ list, ReadsCall (invocationWithAnonymousMethod method count position) method .invocation
      count position list := by
  have spelled : charsOfList [simpleName method] = method.toList := by
    change (method.toList ++ []) ++ [] = _
    rw [List.append_nil, List.append_nil]
  have called : NodeKind.invocationExpression.callForm? = some .invocation := rfl
  exact exists_readsCall called spelled rfl rfl count position

theorem reads_objectCreation (type : String) (count position : Nat) :
    ∃ list, ReadsCall (objectCreationWithAnonymousMethod type count position) ("new " ++ type)
      .objectCreation count position list := by
  have spelled : charsOfList [.token .newKeyword "new", blank,
      .node .namedType [identifier type]] = ("new " ++ type).toList := by
    change "new".toList ++ ([' '] ++ ((type.toList ++ []) ++ [])) = _
    rw [List.append_nil, List.append_nil, String.toList_append]
    rfl
  have called : NodeKind.objectCreationExpression.callForm? = some .objectCreation := rfl
  exact exists_readsCall called spelled rfl rfl count position

/-! ### Parameters -/

theorem exists_parameterList {node : Node} {parameters : List (String × String)}
    (same : node.tree.element = anonymousMethod (some parameters)) :
    ∃ list, node.parameterList? = some list ∧
      List.Forall₂ (fun found entry => found.node.tree.element = parameter entry.1 entry.2)
        list.parameters parameters := by
  have children := (Element.node.inj same).2
  have found := node.element_childAs? .parameterList
  rw [children] at found
  obtain ⟨list, first, element⟩ := Option.map_eq_some_iff.mp found
  refine ⟨list, first, forall₂_of_map_eq ?_⟩
  refine elements_childrenAs_parenthesized (Element.node.inj element).2 ?_
  intro element member
  obtain ⟨entry, -, rfl⟩ := List.mem_map.mp member
  rfl

theorem text_name_of_parameter {found : Parameter} {type name : String}
    (same : found.node.tree.element = parameter type name) :
    found.name?.map (·.text) = some name := by
  rw [Parameter.name?, Node.text_childToken?, (Element.node.inj same).2]
  rfl

theorem parameterList?_anonymousMethod {node : Node} (parameters : Option (List (String × String)))
    (same : node.tree.element = anonymousMethod parameters) :
    node.parameterList?.map
          (fun list => list.parameters.map fun found => found.name?.map (·.text)) =
        parameters.map (·.map fun entry => some entry.2) ∧
      node.parameterList?.map (·.parameters.isEmpty) = parameters.map List.isEmpty := by
  cases parameters with
  | none =>
      have found := node.element_childAs? .parameterList
      rw [(Element.node.inj same).2] at found
      rw [Node.parameterList?, Option.map_eq_none_iff.mp found]
      exact ⟨rfl, rfl⟩
  | some parameters =>
      obtain ⟨list, first, corresponding⟩ := exists_parameterList same
      have names := map_eq_of_rel corresponding fun _ _ same => text_name_of_parameter same
      rw [first]
      exact ⟨congrArg some names, congrArg some (isEmpty_eq_of_rel corresponding).symm⟩

theorem count_anonymousMethod (parameters : Option (List (String × String))) :
    (anonymousMethod parameters).nodeKinds.count .anonymousMethodExpression = 1 := by
  cases parameters with
  | none => rfl
  | some parameters =>
      change (NodeKind.anonymousMethodExpression :: (NodeKind.parameterList :: nodeKindsOfList _) ++
        [NodeKind.block, .returnStatement, .literalExpression]).count _ = 1
      rw [List.count_append, List.count_cons_self, List.count_cons_of_ne (by decide),
        count_parenthesized]
      · rfl
      · intro element member
        obtain ⟨entry, -, rfl⟩ := List.mem_map.mp member
        rfl

/-- A tree is read back as that of an anonymous method: it is the only one, and it has a list
exactly if there is one of parameters, with their names. -/
structure ReadsMethod (tree : Tree) (parameters : Option (List (String × String)))
    (anonymous : AnonymousMethod) : Prop where
  single : tree.nodesOf .anonymousMethodExpression = [anonymous.node]
  names : anonymous.node.parameterList?.map
      (fun list => list.parameters.map fun found => found.name?.map (·.text)) =
    parameters.map (·.map fun entry => some entry.2)
  isEmpty : anonymous.node.parameterList?.map (·.parameters.isEmpty) = parameters.map List.isEmpty

theorem reads_delegateAssignment (parameters : Option (List (String × String))) :
    ∃ anonymous, ReadsMethod (delegateAssignment parameters) parameters anonymous := by
  obtain ⟨method, placed, tree, -⟩ := exists_value "f" .anonymousMethodExpression _
  have same : method.tree.element = anonymousMethod parameters := congrArg Tree.element tree
  have isMethod : method.kind = .anonymousMethodExpression := congrArg Tree.kind tree
  have once : (delegateAssignment parameters).element.nodeKinds.count
      .anonymousMethodExpression = 1 := by
    rw [delegateAssignment, nodeKinds_assignment, List.count_append, count_anonymousMethod]
    rfl
  obtain ⟨names, isEmpty⟩ := parameterList?_anonymousMethod parameters same
  exact ⟨⟨method, isMethod⟩, Tree.nodesOf_eq_singleton placed isMethod once, names, isEmpty⟩

/-! ### Attributes -/

/-- The elements of an attribute, which has a list if there is one of arguments. -/
def attributeParts (name : String) (arguments : Option (List String)) : List Element :=
  simpleName name :: match arguments with
    | none => []
    | some arguments =>
        [.node .attributeArgumentList (parenthesized (arguments.map attributeArgument))]

theorem attribute_name {attr : Attribute} {name : String} {arguments : Option (List String)}
    (same : attr.node.tree.children = attributeParts name arguments) : attr.name? = some name := by
  have names := attr.node.elements_childrenAs .identifierName
  have single : (attributeParts name arguments).filter (·.kind = .node .identifierName) =
      [simpleName name] := by
    cases arguments <;> rfl
  rw [same, single] at names
  obtain ⟨found, only, element⟩ := List.map_eq_singleton_iff.mp names
  rw [Attribute.name?, only, List.findSome?_singleton, IdentifierName.text?,
    (Element.node.inj element).2]
  rfl

theorem attribute_arguments {attr : Attribute} {name : String} {arguments : Option (List String)}
    (same : attr.node.tree.children = attributeParts name arguments) :
    attr.argumentList?.map (·.arguments.length) = arguments.map List.length := by
  have found := attr.node.element_childAs? .attributeArgumentList
  rw [same] at found
  cases arguments with
  | none =>
      rw [Attribute.argumentList?, Option.map_eq_none_iff.mp found]
      rfl
  | some arguments =>
      obtain ⟨list, first, element⟩ := Option.map_eq_some_iff.mp found
      have kinds : ∀ argument ∈ arguments.map attributeArgument,
          argument.kind = .node .attributeArgument := by
        intro argument member
        obtain ⟨text, -, rfl⟩ := List.mem_map.mp member
        rfl
      have lengths := congrArg List.length
        (elements_childrenAs_parenthesized (Element.node.inj element).2 kinds)
      rw [List.length_map, List.length_map] at lengths
      rw [Attribute.argumentList?, first]
      exact congrArg some lengths

theorem count_attributeParts (name : String) (arguments : Option (List String)) :
    (nodeKindsOfList (attributeParts name arguments)).count .attribute = 0 := by
  cases arguments with
  | none => rfl
  | some arguments =>
      have nowhere : (nodeKindsOfList (parenthesized (arguments.map attributeArgument))).count
          .attribute = 0 := by
        refine count_parenthesized fun element member => ?_
        obtain ⟨text, -, rfl⟩ := List.mem_map.mp member
        rfl
      change (NodeKind.identifierName :: .attributeArgumentList :: (nodeKindsOfList _ ++ [])).count
        _ = 0
      rw [List.append_nil, List.count_cons_of_ne (by decide), List.count_cons_of_ne (by decide),
        nowhere]

/-- A tree is read back as that of an attribute: it is the only one, it has the name, and it has a
list exactly if there is one of arguments, with as many of them. -/
structure ReadsAttribute (tree : Tree) (name : String) (arguments : Option (List String))
    (attr : Attribute) : Prop where
  single : tree.nodesOf .attribute = [attr.node]
  name : attr.name? = some name
  lengths : attr.argumentList?.map (·.arguments.length) = arguments.map List.length

theorem reads_attributedMethod (name : String) (arguments : Option (List String)) :
    ∃ attr, ReadsAttribute (attributedMethod name arguments) name arguments attr := by
  have top : (attributedMethod name arguments).root.Placed _ := .root
  obtain ⟨declaration, placed, tree, -, -⟩ := top.exists_child [] rfl
  obtain ⟨list, placed, tree, -, -⟩ := placed.exists_child [] (congrArg Tree.children tree)
  obtain ⟨attr, placed, tree, -, -⟩ :=
    placed.exists_child [.token .leftBracket "["] (congrArg Tree.children tree)
  have parts : attr.tree.children = attributeParts name arguments := congrArg Tree.children tree
  have isAttribute : attr.kind = .attribute := congrArg Tree.kind tree
  have once : (attributedMethod name arguments).element.nodeKinds.count .attribute = 1 := by
    change (NodeKind.compilationUnit :: ((NodeKind.methodDeclaration :: ((NodeKind.attributeList ::
      ((NodeKind.attribute :: nodeKindsOfList (attributeParts name arguments)) ++ [])) ++
        [NodeKind.predefinedType, .parameterList, .block])) ++ [])).count _ = 1
    rw [List.append_nil, List.append_nil, List.count_cons_of_ne (by decide),
      List.count_cons_of_ne (by decide), List.count_append, List.count_cons_of_ne (by decide),
      List.count_cons_self, count_attributeParts]
    rfl
  exact ⟨⟨attr, isAttribute⟩, Tree.nodesOf_eq_singleton placed isAttribute once,
    attribute_name parts, attribute_arguments parts⟩

/-! ### Reading back -/

/-- **Reading back.** The text of a call with an anonymous method lists its arguments, and the
accessors find as many of them as there are, each at its index, and the anonymous method at its
position if there are so many. An anonymous method that stands alone has the parameters that it was
given, and an attribute has its name and its arguments. -/
theorem accessors_read_back :
    (∀ method count position, ∃ list, ReadsCall
      (invocationWithAnonymousMethod method count position) method .invocation
        count position list) ∧
    (∀ type count position, ∃ list, ReadsCall
      (objectCreationWithAnonymousMethod type count position) ("new " ++ type) .objectCreation
        count position list) ∧
    (∀ parameters, ∃ anonymous,
      ReadsMethod (delegateAssignment parameters) parameters anonymous) ∧
    ∀ name arguments, ∃ attr,
      ReadsAttribute (attributedMethod name arguments) name arguments attr :=
  ⟨reads_invocation, reads_objectCreation, reads_delegateAssignment, reads_attributedMethod⟩

theorem accessors_read_back_third : ∃ list,
    ReadsCall (invocationWithAnonymousMethod "Run" 3 2) "Run" .invocation 3 2 list ∧
      ∃ (method : Node) (argument : Argument), method.parent? = some argument.node ∧
        list.positionOf? argument = some 2 := by
  obtain ⟨list, reads⟩ := accessors_read_back.1 "Run" 3 2
  obtain ⟨method, argument, -, under, -, position⟩ := reads.inside (by decide)
  exact ⟨list, reads, method, argument, under, position⟩

end Snippet

end TreeLint
