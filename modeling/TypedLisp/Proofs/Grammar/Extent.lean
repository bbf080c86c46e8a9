import Mathlib.Order.Basic
import TypedLisp.Proofs.Graph.Rows
import TypedLisp.Proofs.Reading.Adequacy
import TypedLisp.Proofs.Reading.Parentheses

/-! How deep and how large derived trees are.

A form adds at most four levels to the expressions in it, and each form but a called
function counts as nested, so a tree is at most four times as deep as it nests, plus
what a program and a statement put around. A token makes at most three nodes.
-/

set_option autoImplicit false

namespace TypedLisp

/-! ## Heights -/

namespace Node

mutual

def height : Node → Nat
  | ⟨_, _, _, _, children⟩ => levels children

def levels : List Node → Nat
  | [] => 0
  | node :: siblings => max (height node + 1) (levels siblings)

end

section
variable {node inner : Node} {nodes items : List Node} {bound : Nat}

theorem height_eq (node : Node) : node.height = levels node.children := by
  cases node
  rfl

theorem levels_le_succ_iff : levels nodes ≤ bound + 1 ↔ ∀ node ∈ nodes, node.height ≤ bound := by
  induction nodes with
  | nil => simp [levels]
  | cons node nodes ih =>
    rw [levels, Nat.max_le, ih, List.forall_mem_cons, Nat.add_le_add_iff_right]

theorem height_le_succ_iff :
    node.height ≤ bound + 1 ↔ ∀ child ∈ node.children, child.height ≤ bound := by
  rw [height_eq, levels_le_succ_iff]

theorem height_wrap (kind : NodeKind) (inner : Node) : (wrap kind inner).height = inner.height + 1 :=
  Nat.max_zero _

theorem height_expression (inner : Node) : (expression inner).height = inner.height + 1 :=
  Nat.max_zero _

theorem height_gather_le {kind : NodeKind} {emptyLine : Nat}
    (within : ∀ item ∈ items, item.height ≤ bound) :
    (gather kind emptyLine items).height ≤ bound + 1 := by
  match items with
  | [] => exact Nat.zero_le _
  | [item] => exact Nat.le_succ_of_le (within item List.mem_cons_self)
  | first :: second :: rest => exact height_le_succ_iff.mpr within

theorem length_le_height {tree : Node} {path : List Nat} (found : tree.descend? path = some node) :
    path.length ≤ tree.height := by
  induction path generalizing tree with
  | nil => exact Nat.zero_le _
  | cons index path ih =>
    obtain ⟨child, listed, found⟩ := descend?_cons_eq_some_iff.mp found
    have below : levels tree.children ≤ tree.height := Nat.le_of_eq (height_eq tree).symm
    cases high : tree.height with
    | zero =>
      rw [high] at below
      cases children : tree.children with
      | nil => simp [children] at listed
      | cons first rest => simp [children, levels] at below
    | succ bound =>
      rw [high, levels_le_succ_iff] at below
      exact Nat.succ_le_succ (Nat.le_trans (ih found) (below child (List.mem_of_getElem? listed)))

theorem exists_room_of_nests (nests : node.kind.nests false) (within : node.nesting ≤ bound) :
    ∃ room, bound = room + 1 := by
  rw [nesting, nestingFrom_eq, if_pos nests] at within
  exact Nat.exists_eq_add_one.mpr (by omega)

end

end Node

namespace Grammar

section
variable {bound : Nat} {operands arguments statements : List Node} {tokens : List Token}

theorem height_operandNodes_le (operator : Operator) (within : ∀ operand ∈ operands, operand.height ≤ bound) :
    ∀ node ∈ operandNodes operator operands, node.height ≤ bound + 1 := by
  have higher : ∀ operand ∈ operands, operand.height ≤ bound + 1 :=
    fun operand member => Nat.le_succ_of_le (within operand member)
  rcases operandNodes_cases operator operands with
    ⟨-, flat⟩ | ⟨first, second, third, rest, -, rfl, listed⟩
  · rwa [flat]
  · have list : (expressionList (second :: third :: rest) second.line).height ≤ bound + 1 :=
      Node.height_le_succ_iff.mpr fun operand member => within operand (List.mem_cons_of_mem _ member)
    rw [listed]
    exact List.forall_mem_cons.mpr ⟨higher first List.mem_cons_self, List.forall_mem_singleton.mpr list⟩

theorem height_operation_le {operator : Operator} {line : Nat}
    (within : ∀ operand ∈ operands, operand.height ≤ bound) :
    (operation operator operands line).height ≤ bound + 2 :=
  Node.height_le_succ_iff.mpr (height_operandNodes_le operator within)

theorem height_conditional_le {condition consequent alternative : Node} {line : Nat}
    (first : condition.height ≤ bound) (second : consequent.height ≤ bound)
    (third : alternative.height ≤ bound) :
    (conditional condition consequent alternative line).height ≤ bound + 2 := by
  refine Node.height_le_succ_iff.mpr ?_
  simp [conditional, Node.untyped, Node.height_wrap, first, second, third]

theorem height_function_le {parameters : List Token} {listLine line : Nat} {body : Node}
    (within : body.height ≤ bound + 1) :
    (function parameters listLine body line).height ≤ bound + 3 := by
  have names : ∀ item ∈ parameters.map parameter, item.height ≤ 1 := by
    intro item member
    obtain ⟨token, -, rfl⟩ := List.mem_map.mp member
    exact Nat.le_refl 1
  refine Node.height_le_succ_iff.mpr (List.forall_mem_cons.mpr ⟨?_, List.forall_mem_singleton.mpr ?_⟩)
  · exact Nat.le_trans (Node.height_gather_le names) (Nat.le_add_left ..)
  · exact (Node.height_wrap .body body).trans_le (Nat.succ_le_succ within)

theorem height_call_le {callee : Node} {line closeLine : Nat} (called : callee.height ≤ bound + 2)
    (within : ∀ argument ∈ arguments, argument.height ≤ bound) :
    (call callee arguments line closeLine).height ≤ bound + 3 := by
  have wrapped : ∀ item ∈ arguments.map (Node.wrap .argument), item.height ≤ bound + 1 := by
    intro item member
    obtain ⟨argument, listed, rfl⟩ := List.mem_map.mp member
    exact (Node.height_wrap .argument argument).trans_le (Nat.succ_le_succ (within argument listed))
  exact Node.height_le_succ_iff.mpr
    (List.forall_mem_cons.mpr ⟨called, List.forall_mem_singleton.mpr (Node.height_gather_le wrapped)⟩)

/-- Four levels for each form that is nested, and one for what stands in the innermost expression. -/
def Shallow (tree : Node) : Prop :=
  ∀ room, tree.nesting ≤ room → tree.height ≤ 4 * room + 1

theorem shallow_of_part {node : Node} (part : ∃ _ : Expression tokens node, Shallow node) : Shallow node :=
  part.elim fun _ shallow => shallow

theorem shallow_of_form {form : Node} (nests : form.kind.nests false)
    (height : ∀ room, form.nesting ≤ room + 1 → form.height ≤ 4 * room + 4) :
    Shallow (.expression form) := by
  intro room within
  rw [Node.nesting_expression] at within
  obtain ⟨room, rfl⟩ := Node.exists_room_of_nests nests within
  rw [Node.height_expression]
  exact Nat.succ_le_succ (height room within)

theorem Function.height_le {node : Node} {room : Nat}
    (form : Function (fun tokens node => ∃ _ : Expression tokens node, Shallow node) tokens node)
    (within : node.nestingFrom true ≤ room) : node.height ≤ 4 * room + 3 := by
  cases form with
  | intro _ _ _ _ body =>
    rw [nestingFrom_function] at within
    exact height_function_le (shallow_of_part body room within)

-- The room goes down by one at every form, and four levels with it.
theorem Expression.shallow {tree : Node} (derives : Expression tokens tree) : Shallow tree := by
  induction derives with
  | number | boolean | identifier => exact fun room _ => Nat.le_add_left ..
  | operation parens kind many takes parts =>
    refine shallow_of_form rfl fun room within => Nat.le_succ_of_le (height_operation_le ?_)
    exact fun operand member => parts.forall_mem (fun part => shallow_of_part part) operand member room
      (nesting_operation_le_iff.mp within operand member)
  | conditional parens kind first second third tests consequents alternatives =>
    refine shallow_of_form rfl fun room within => ?_
    obtain ⟨test, consequent, alternative⟩ := nesting_conditional_le_iff.mp within
    exact Nat.le_succ_of_le (height_conditional_le (tests room test) (consequents room consequent)
      (alternatives room alternative))
  | function form part =>
    cases part with
    | intro parens kind listParens names body =>
      refine shallow_of_form rfl fun room within => ?_
      rw [Node.nesting, nestingFrom_function] at within
      exact Nat.le_succ_of_le (height_function_le
        (shallow_of_part body room (Nat.le_of_succ_le_succ within)))
  | namedCall parens kind many parts =>
    refine shallow_of_form rfl fun room within => height_call_le (Nat.le_add_left ..) ?_
    exact fun argument member => parts.forall_mem (fun part => shallow_of_part part) argument member room
      ((nesting_call_le_iff.mp within).2 argument member)
  | functionCall parens form many called parts =>
    refine shallow_of_form rfl fun room within => ?_
    obtain ⟨callee, arguments⟩ := nesting_call_le_iff.mp within
    exact height_call_le (called.height_le callee) fun argument member =>
      parts.forall_mem (fun part => shallow_of_part part) argument member room (arguments argument member)

theorem Statement.height_le {node : Node} {room : Nat} (derives : Statement tokens node)
    (within : node.nesting ≤ room) : node.height ≤ 4 * room + 3 := by
  cases derives with
  | bare derives =>
    have shallow := derives.shallow room ((Node.nestingFrom_wrap rfl false _).symm.trans_le within)
    exact (Node.height_wrap .statement _).trans_le (Nat.succ_le_succ (Nat.le_succ_of_le shallow))
  | definition parens kind named derives =>
    rw [Node.nesting, Node.nestingFrom_wrap rfl, nesting_definition] at within
    rw [Node.height_wrap]
    refine Nat.succ_le_succ (Node.height_le_succ_iff.mpr ?_)
    exact List.forall_mem_cons.mpr ⟨Nat.le_add_left .., List.forall_mem_singleton.mpr
      (derives.shallow room within)⟩
  | printNum parens kind derives | printBool parens kind derives =>
    rw [Node.nesting, Node.nestingFrom_wrap rfl, nesting_print rfl] at within
    rw [Node.height_wrap]
    exact Nat.succ_le_succ (Node.height_le_succ_iff.mpr (List.forall_mem_singleton.mpr
      (derives.shallow room within)))

theorem Program.height_le {tree : Node} {room : Nat} (program : Program tokens tree)
    (within : tree.nesting ≤ room) : tree.height ≤ 4 * room + 5 := by
  obtain ⟨statements, many, tree?⟩ := program
  have inner := (nesting_program?_le_iff tree?).mp within
  have heights : ∀ statement ∈ statements, statement.height ≤ 4 * room + 3 := fun statement member =>
    many.forall_mem (P := fun node => node.nesting ≤ room → node.height ≤ 4 * room + 3)
      (fun derives within => derives.height_le within) statement member (inner statement member)
  cases statements with
  | nil => cases tree?
  | cons first rest =>
    cases tree?
    exact (Node.height_wrap .program _).trans_le (Nat.succ_le_succ (Node.height_gather_le heights))

/-! ## Sizes -/

theorem size_wrap (kind : NodeKind) (inner : Node) : (Node.wrap kind inner).size = inner.size + 1 := rfl

theorem size_expression (inner : Node) : (Node.expression inner).size = inner.size + 1 := rfl

theorem sizeAll_map_wrap (kind : NodeKind) (nodes : List Node) :
    Node.sizeAll (nodes.map (.wrap kind)) = Node.sizeAll nodes + nodes.length := by
  induction nodes with
  | nil => rfl
  | cons node nodes ih =>
    rw [List.map_cons, Node.sizeAll, Node.sizeAll, size_wrap, ih, List.length_cons]
    omega

theorem size_gather_le (kind : NodeKind) (emptyLine : Nat) (items : List Node) :
    (Node.gather kind emptyLine items).size ≤ Node.sizeAll items + 1 := by
  match items with
  | [] => exact Nat.le_refl _
  | [item] => exact Nat.le_add_right ..
  | first :: second :: rest => exact Nat.le_refl _

theorem sizeAll_operandNodes_le (operator : Operator) (operands : List Node) :
    Node.sizeAll (operandNodes operator operands) ≤ Node.sizeAll operands + 1 := by
  rcases operandNodes_cases operator operands with
    ⟨-, flat⟩ | ⟨first, second, third, rest, -, rfl, listed⟩
  · rw [flat]
    exact Nat.le_add_right ..
  · have list : (expressionList (second :: third :: rest) second.line).size =
      Node.sizeAll (second :: third :: rest) + 1 := rfl
    rw [listed]
    simp only [Node.sizeAll, list]
    omega

theorem size_operation_le (operator : Operator) (operands : List Node) (line : Nat) :
    (operation operator operands line).size ≤ Node.sizeAll operands + 2 :=
  Nat.succ_le_succ (sizeAll_operandNodes_le operator operands)

theorem size_conditional (condition consequent alternative : Node) (line : Nat) :
    (conditional condition consequent alternative line).size =
      condition.size + consequent.size + alternative.size + 4 := by
  simp only [conditional, Node.untyped, Node.size, Node.sizeAll, size_wrap]
  omega

theorem size_function_le (parameters : List Token) (listLine : Nat) (body : Node) (line : Nat) :
    (function parameters listLine body line).size ≤ 2 * parameters.length + body.size + 3 := by
  have names : Node.sizeAll (parameters.map parameter) = 2 * parameters.length := by
    induction parameters with
    | nil => rfl
    | cons token parameters ih =>
      have single : (parameter token).size = 2 := rfl
      rw [List.map_cons, Node.sizeAll, single, ih, List.length_cons]
      omega
  have list := size_gather_le .parameterList listLine (parameters.map parameter)
  simp only [function, Node.untyped, Node.size, Node.sizeAll, size_wrap]
  omega

theorem size_call_le (callee : Node) (arguments : List Node) (line closeLine : Nat) :
    (call callee arguments line closeLine).size ≤
      callee.size + Node.sizeAll arguments + arguments.length + 2 := by
  have list := size_gather_le .argumentList closeLine (arguments.map (.wrap .argument))
  rw [sizeAll_map_wrap] at list
  simp only [call, Node.call, Node.size, Node.sizeAll]
  omega

theorem size_definition (name : Token) (value : Node) (line : Nat) :
    (definition name value line).size = value.size + 3 := by
  simp only [definition, Node.untyped, Node.size, Node.sizeAll, size_wrap, Node.identifier]
  omega

theorem size_print (kind : NodeKind) (keyword : String) (printed : Node) (line : Nat) :
    (Node.print kind keyword printed line).size = printed.size + 1 := rfl

/-- Three nodes for each token, of which some are left. -/
def Spares (spare : Nat) (tokens : List Token) (node : Node) : Prop :=
  node.size + spare ≤ 3 * tokens.length

section
variable {spare : Nat} {nodes : List Node} {node : Node}

theorem Many.sizeAll_le (many : Many (Spares spare) tokens nodes) :
    Node.sizeAll nodes + spare * nodes.length ≤ 3 * tokens.length := by
  induction many with
  | nil => simp [Node.sizeAll]
  | @cons first rest node nodes item _ ih =>
    unfold Spares at item
    rw [Node.sizeAll, List.length_cons, List.length_append, Nat.mul_add, Nat.mul_add]
    omega

theorem spares_of_part (part : ∃ _ : Expression tokens node, Spares 1 tokens node) :
    Spares 1 tokens node :=
  part.elim fun _ spares => spares

theorem Function.spares (form : Function (Spares 1) tokens node) : Spares 2 tokens node := by
  cases form with
  | @intro opening _ listOpening _ _ parameters _ node _ _ _ _ body =>
    have size := size_function_le parameters listOpening.line node opening.line
    unfold Spares at body ⊢
    simp only [List.length_cons, List.length_append, List.length_nil]
    omega

-- A node is paid for by three times its tokens, with one left over for each expression, which the list
-- around it takes.
theorem Expression.spares (derives : Expression tokens node) : Spares 1 tokens node := by
  induction derives with
  | number | boolean | identifier => exact Nat.le_refl 3
  | @operation opening head _ operator _ operands parens kind many takes parts =>
    have inner := (parts.imp spares_of_part).sizeAll_le
    have size := size_operation_le operator operands opening.line
    unfold Spares
    simp only [size_expression, List.length_cons, List.length_append, List.length_nil]
    omega
  | conditional parens kind first second third tests consequents alternatives =>
    unfold Spares at tests consequents alternatives ⊢
    simp only [size_expression, size_conditional, List.length_cons, List.length_append, List.length_nil]
    omega
  | function form part =>
    have inner := (part.imp spares_of_part).spares
    unfold Spares at inner ⊢
    rw [size_expression]
    omega
  | @namedCall opening name closing _ arguments parens kind many parts =>
    have inner := (parts.imp spares_of_part).sizeAll_le
    have size := size_call_le (calleeName name) arguments opening.line closing.line
    have callee : (calleeName name).size = 2 := rfl
    unfold Spares
    simp only [size_expression, List.length_cons, List.length_append, List.length_nil]
    omega
  | @functionCall opening closing _ _ callee arguments parens form many called parts =>
    have function := (called.imp spares_of_part).spares
    have inner := (parts.imp spares_of_part).sizeAll_le
    have size := size_call_le callee arguments opening.line closing.line
    unfold Spares at function ⊢
    simp only [size_expression, List.length_cons, List.length_append, List.length_nil]
    omega

theorem Statement.spares (derives : Statement tokens node) : Spares 0 tokens node := by
  cases derives with
  | bare derives =>
    have inner := derives.spares
    unfold Spares at inner ⊢
    rw [size_wrap]
    omega
  | definition parens kind named derives =>
    have inner := derives.spares
    unfold Spares at inner ⊢
    simp only [size_wrap, size_definition, List.length_cons, List.length_append, List.length_nil]
    omega
  | printNum parens kind derives | printBool parens kind derives =>
    have inner := derives.spares
    unfold Spares at inner ⊢
    simp only [size_wrap, size_print, List.length_cons, List.length_append, List.length_nil]
    omega

theorem Program.size_le (program : Program tokens node) : node.size ≤ 3 * tokens.length + 2 := by
  obtain ⟨statements, many, tree?⟩ := program
  have inner := (many.imp Statement.spares).sizeAll_le
  cases statements with
  | nil => cases tree?
  | cons first rest =>
    cases tree?
    have list := size_gather_le .statementList first.line (first :: rest)
    rw [size_wrap]
    omega

end

end

end Grammar

/-- However long a source is, its tree is not deep: no node in it, no row of its outline and so no
recursion over it is further down than the nesting limit allows. The number of its nodes grows with
that of the tokens. -/
theorem extent_of_parse {source : String} {tree : Node} (parsed : parse source = .ok tree) :
    ∃ tokens, tokenize source = .ok tokens ∧ tree.size ≤ 3 * tokens.length + 2 ∧
      tree.height ≤ 4 * 128 + 5 ∧
      (∀ path node, tree.descend? path = some node → path.length ≤ 4 * 128 + 5) ∧
      ∀ row ∈ (Graph.ofNode tree).outline, row.depth ≤ 4 * 128 + 5 := by
  obtain ⟨tokens, lexes, program, -, shallow⟩ := parse_eq_ok_iff.mp parsed
  have height : tree.height ≤ 4 * 128 + 5 := program.height_le shallow
  have paths : ∀ path node, tree.descend? path = some node → path.length ≤ 4 * 128 + 5 :=
    fun path node found => Nat.le_trans (Node.length_le_height found) height
  have depths : (Graph.ofNode tree).outline.map OutlineLine.depth = tree.preorder.map Prod.fst :=
    Graph.map_outline_ofNode fun _ _ _ => rfl
  refine ⟨tokens, lexes, program.size_le, height, paths, fun row member => ?_⟩
  have listed := List.mem_map_of_mem (f := OutlineLine.depth) member
  rw [depths] at listed
  obtain ⟨⟨depth, node⟩, entry, same⟩ := List.mem_map.mp listed
  obtain ⟨path, found, length⟩ := Node.mem_preorder_iff.mp entry
  rw [← same, ← length]
  exact paths path node found

def definedAfterOne (text : String) : String :=
  "1(define x" ++ text ++ "\n)"

def definedAfterOneTokens (tokens : List Token) : List Token :=
  ⟨.number 1, "1", 1⟩ :: ⟨.leftParen, "(", 1⟩ :: ⟨.define, "define", 1⟩ :: ⟨.identifier, "x", 1⟩ ::
    (tokens ++ [⟨.rightParen, ")", 2⟩])

theorem lexAll_definedAfterOne {text : String} {rest : List Char} {tokens : List Token}
    (starts : text.toList = '(' :: rest) (tiles : Tiles 1 text.toList tokens 1 []) :
    (Lexer.ofSource (definedAfterOne text)).lexAll = ⟨definedAfterOneTokens tokens, none, ⟨[], 2⟩⟩ := by
  have one (rest : List Char) : (⟨'1' :: '(' :: rest, 1⟩ : Lexer).pull =
    .token ⟨.number 1, "1", 1⟩ ⟨'(' :: rest, 1⟩ := rfl
  have opening (rest : List Char) : (⟨'(' :: rest, 1⟩ : Lexer).pull =
    .token ⟨.leftParen, "(", 1⟩ ⟨rest, 1⟩ := rfl
  have defines (rest : List Char) : (⟨"define x".toList ++ rest, 1⟩ : Lexer).pull =
    .token ⟨.define, "define", 1⟩ ⟨" x".toList ++ rest, 1⟩ := rfl
  have name (rest : List Char) : (⟨" x(".toList ++ rest, 1⟩ : Lexer).pull =
    .token ⟨.identifier, "x", 1⟩ ⟨'(' :: rest, 1⟩ := rfl
  have closing : (⟨['\n', ')'], 1⟩ : Lexer).pull = .token ⟨.rightParen, ")", 2⟩ ⟨[], 2⟩ := rfl
  have closes : Tiles 1 ['\n', ')'] [⟨.rightParen, ")", 2⟩] 2 [] := Lexer.tiles_of_pull closing
  have inner := (tiles.append ⟨'\n', [')'], rfl, rfl⟩).trans closes
  rw [starts] at inner
  have whole := (Lexer.tiles_of_pull (one _)).trans <| (Lexer.tiles_of_pull (opening _)).trans <|
    (Lexer.tiles_of_pull (defines _)).trans <| (Lexer.tiles_of_pull (name _)).trans inner
  have lexed := Lexer.lexAll_of_tiles whole
  rw [Lexer.lexAll_of_allBlank (List.forall_mem_nil _), List.append_nil] at lexed
  have source : (definedAfterOne text).toList = "1(define x".toList ++ ('(' :: rest ++ ['\n', ')']) := by
    simp only [definedAfterOne, String.toList_append, starts, List.append_assoc]
    rfl
  rw [Lexer.ofSource, source]
  exact lexed

/-- As many called functions as may be nested, where they are deepest. -/
def deepestSource : String :=
  definedAfterOne (nestedCallees 128)

def deepestPath : List Nat :=
  [0, 1, 0, 1] ++ (List.replicate 128 [0, 0, 1, 0]).flatten ++ [0]

theorem exists_of_reached {result : Except SourceError Node} {path : List Nat}
    (reached : (result.toOption.bind (·.descend? path)).isSome) :
    ∃ tree node, result = .ok tree ∧ tree.descend? path = some node := by
  cases result with
  | error error => cases reached
  | ok tree =>
    obtain ⟨node, found⟩ := Option.isSome_iff_exists.mp reached
    exact ⟨tree, node, rfl, found⟩

theorem reaches_deepestPath : ∃ tree node, parse deepestSource = .ok tree ∧
    tree.descend? deepestPath = some node := by
  have reached : ((Reader.start.outcome
      ⟨definedAfterOneTokens (nestedCalleeTokens 128), none, ⟨[], 2⟩⟩).toOption.bind
        (·.descend? deepestPath)).isSome := by
    decide +kernel
  obtain ⟨rest, starts⟩ : ∃ rest, (nestedCallees 128).toList = '(' :: rest :=
    ⟨_, by rw [nestedCallees, String.toList_ofList]; rfl⟩
  have lexed := lexAll_definedAfterOne starts (tiles_nestedCallees 128)
  rw [← lexed, ← parse_eq_outcome] at reached
  exact exists_of_reached reached

/-- The deepest node there can be. -/
theorem extent_of_parse_deepest :
    ∃ tree node, parse deepestSource = .ok tree ∧ tree.descend? deepestPath = some node ∧
      deepestPath.length = 517 ∧ tree.height = 517 := by
  obtain ⟨tree, node, parsed, found⟩ := reaches_deepestPath
  obtain ⟨-, -, -, height, -⟩ := extent_of_parse parsed
  have length : deepestPath.length = 517 := by decide +kernel
  have high := Node.length_le_height found
  rw [length] at high
  exact ⟨tree, node, parsed, found, length, Nat.le_antisymm height high⟩

end TypedLisp
