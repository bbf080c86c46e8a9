import TypedLisp.Operator

/-! Nodes of the syntax tree.

A node has a kind, a value type if it can be evaluated, the line it starts on,
raw leaf texts and child nodes; leaves stand before child nodes. The preorder
lists every node once, each before its descendants, with its depth.
-/

set_option autoImplicit false

namespace TypedLisp

inductive NodeKind where
  | program
  | statementList
  | statement
  | definition
  | definedName
  | printNum
  | printBool
  | expression
  | expressionList
  | conditional
  | test
  | consequent
  | alternative
  | function
  | call
  | calleeName
  | parameterList
  | parameter
  | argumentList
  | argument
  | body
  | operator (operation : Operator)
  | number
  | boolean
  | identifier
  deriving Repr, DecidableEq

namespace NodeKind

def all : List NodeKind :=
  [.program, .statementList, .statement, .definition, .definedName, .printNum, .printBool,
   .expression, .expressionList, .conditional, .test, .consequent, .alternative, .function, .call,
   .calleeName, .parameterList, .parameter, .argumentList, .argument, .body] ++
  Operator.all.map .operator ++ [.number, .boolean, .identifier]

def name : NodeKind → String
  | .program => "program"
  | .statementList => "stmt_list"
  | .statement => "stmt"
  | .definition => "def_stmt"
  | .definedName => "var"
  | .printNum => "print_num"
  | .printBool => "print_bool"
  | .expression => "expr"
  | .expressionList => "expr_list"
  | .conditional => "if_expr"
  | .test => "test_expr"
  | .consequent => "than_expr"
  | .alternative => "else_expr"
  | .function => "fun_expr"
  | .call => "fun_call"
  | .calleeName => "fun_name"
  | .parameterList => "fun_ids"
  | .parameter => "fun_id"
  | .argumentList => "fun_params"
  | .argument => "fun_param"
  | .body => "fun_body"
  | .operator operation => operation.symbol
  | .number => "number"
  | .boolean => "boolean"
  | .identifier => "id"

theorem mem_all (kind : NodeKind) : kind ∈ all := by
  cases kind with
  | operator operation => simp [all, Operator.mem_all]
  | _ => decide

def ofName? (name : String) : Option NodeKind :=
  all.find? fun kind => kind.name == name

@[simp] theorem ofName?_name (kind : NodeKind) : ofName? kind.name = some kind := by
  cases kind with
  | operator operation => cases operation <;> decide
  | _ => decide

theorem name_injective {first second : NodeKind} (same : first.name = second.name) :
    first = second := by
  have found := congrArg ofName? same
  rw [ofName?_name, ofName?_name] at found
  exact Option.some.inj found

end NodeKind

structure Node where
  kind : NodeKind
  valueType : Option ValueType
  line : Nat
  leaves : List String
  children : List Node
  deriving Repr

namespace Node

mutual

def decEq : (first second : Node) → Decidable (first = second)
  | ⟨kind, valueType, line, leaves, children⟩, ⟨kind', valueType', line', leaves', children'⟩ =>
      if same : kind = kind' ∧ valueType = valueType' ∧ line = line' ∧ leaves = leaves' then
        match decEqAll children children' with
        | isTrue sameChildren => isTrue (by
            obtain ⟨rfl, rfl, rfl, rfl⟩ := same
            rw [sameChildren])
        | isFalse differ => isFalse fun equal => differ (Node.mk.inj equal).2.2.2.2
      else isFalse fun equal => same (by cases equal; exact ⟨rfl, rfl, rfl, rfl⟩)

def decEqAll : (first second : List Node) → Decidable (first = second)
  | [], [] => isTrue rfl
  | [], _ :: _ => isFalse (by simp)
  | _ :: _, [] => isFalse (by simp)
  | first :: firsts, second :: seconds =>
      match decEq first second, decEqAll firsts seconds with
      | isTrue same, isTrue sameRest => isTrue (by rw [same, sameRest])
      | isFalse differ, _ => isFalse fun equal => differ (List.cons.inj equal).1
      | _, isFalse differ => isFalse fun equal => differ (List.cons.inj equal).2

end

instance : DecidableEq Node := decEq

mutual

/-- The node and its descendants with their depths, the node itself at `depth`. -/
def preorderFrom (depth : Nat) : Node → List (Nat × Node)
  | ⟨kind, valueType, line, leaves, children⟩ =>
      (depth, ⟨kind, valueType, line, leaves, children⟩) :: preorderAll (depth + 1) children

def preorderAll (depth : Nat) : List Node → List (Nat × Node)
  | [] => []
  | node :: siblings => preorderFrom depth node ++ preorderAll depth siblings

end

def preorder (node : Node) : List (Nat × Node) :=
  node.preorderFrom 0

mutual

def size : Node → Nat
  | ⟨_, _, _, _, children⟩ => sizeAll children + 1

def sizeAll : List Node → Nat
  | [] => 0
  | node :: siblings => size node + sizeAll siblings

end

mutual

theorem length_preorderFrom (depth : Nat) :
    (node : Node) → (node.preorderFrom depth).length = node.size
  | ⟨kind, valueType, line, leaves, children⟩ => by
      simp [preorderFrom, size, length_preorderAll]

theorem length_preorderAll (depth : Nat) :
    (nodes : List Node) → (preorderAll depth nodes).length = sizeAll nodes
  | [] => rfl
  | node :: siblings => by
      simp [preorderAll, sizeAll, length_preorderFrom, length_preorderAll]

end

theorem preorderFrom_eq (depth : Nat) (node : Node) :
    node.preorderFrom depth = (depth, node) :: preorderAll (depth + 1) node.children := by
  cases node; rfl

theorem size_eq (node : Node) : node.size = sizeAll node.children + 1 := by
  cases node; rfl

mutual

def mapLines (change : Nat → Nat) : Node → Node
  | ⟨kind, valueType, line, leaves, children⟩ =>
      ⟨kind, valueType, change line, leaves, mapLinesAll change children⟩

def mapLinesAll (change : Nat → Nat) : List Node → List Node
  | [] => []
  | node :: siblings => mapLines change node :: mapLinesAll change siblings

end

def shift (lines : Nat) (node : Node) : Node :=
  node.mapLines (· + lines)

/-- Two trees that differ at most in their lines have the same unlined form. -/
def unlined (node : Node) : Node :=
  node.mapLines fun _ => 0

/-- A child node is reached by its index; a path leads from node to node. -/
def descend? : Node → List Nat → Option Node
  | node, [] => some node
  | node, index :: path => node.children[index]?.bind (·.descend? path)

end Node

end TypedLisp
