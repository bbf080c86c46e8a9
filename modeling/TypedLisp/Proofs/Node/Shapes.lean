import TypedLisp.Proofs.Grammar
import TypedLisp.Proofs.Lexing.Kinds

/-! The documented shapes of trees.

A shape says which kinds, leaves and children stand where, and nothing of types and
lines: these are settled by the rules of the nodes and by the tokens. Leaves are
texts that a token can have, numbers being written without superfluous zeros.
-/

set_option autoImplicit false

namespace TypedLisp

/-- A node of a kind with some leaves and children, whatever its type and its line. -/
structure Node.Is (node : Node) (kind : NodeKind) (leaves : List String) (children : List Node) :
    Prop where
  kind_eq : node.kind = kind
  leaves_eq : node.leaves = leaves
  children_eq : node.children = children

namespace Shape

/-! ## Lists -/

/-- No items are a `nil` leaf, one item stands alone, more are listed. -/
inductive Gathered (kind : NodeKind) : List Node → Node → Prop
  | none {node : Node} : node.Is kind ["nil"] [] → Gathered kind [] node
  | one {node : Node} : Gathered kind [node] node
  | more {first second node : Node} {rest : List Node} :
      node.Is kind [] (first :: second :: rest) → Gathered kind (first :: second :: rest) node

inductive Tail : List Node → Node → Prop
  | one {node : Node} : Tail [node] node
  | more {first second node : Node} {rest : List Node} :
      node.Is .expressionList [] (first :: second :: rest) → Tail (first :: second :: rest) node

/-- The operands of an operator, and its children. -/
inductive Operands (operator : Operator) : List Node → List Node → Prop
  | fixed {operands : List Node} : operator.variadic = false → Operands operator operands operands
  | variadic {first tail : Node} {later : List Node} : operator.variadic → Tail later tail →
      Operands operator (first :: later) [first, tail]

inductive Wrapped (kind : NodeKind) : List Node → List Node → Prop
  | nil : Wrapped kind [] []
  | cons {inner node : Node} {inners nodes : List Node} : node.Is kind [] [inner] →
      Wrapped kind inners nodes → Wrapped kind (inner :: inners) (node :: nodes)

/-! ## Forms -/

inductive Identifier : Node → Prop
  | intro {node : Node} {name : String} : node.Is .identifier [name] [] → Word name.toList →
      capitals name.toList ∉ reservedWords.map Prod.fst → Identifier node

inductive Named (kind : NodeKind) : Node → Prop
  | intro {node inner : Node} : node.Is kind [] [inner] → Identifier inner → Named kind node

inductive FunctionOf (body : Node) : Node → Prop
  | intro {node list around : Node} {parameters : List Node} : node.Is .function [] [list, around] →
      Gathered .parameterList parameters list →
      (∀ parameter ∈ parameters, Named .parameter parameter) → around.Is .body [] [body] →
      FunctionOf body node

inductive CallOf (callee : Node) (arguments : List Node) : Node → Prop
  | intro {node list : Node} {items : List Node} : node.Is .call [] [callee, list] →
      Gathered .argumentList items list → Wrapped .argument arguments items →
      CallOf callee arguments node

inductive Expression : Node → Prop
  | number {node inner : Node} {value : Int} : node.Is .expression [] [inner] →
      inner.Is .number [String.ofList (Decimal.write value)] [] → -2147483648 ≤ value →
      value ≤ 2147483647 → Expression node
  | boolean {node inner : Node} {value : Bool} : node.Is .expression [] [inner] →
      inner.Is .boolean [if value then "#t" else "#f"] [] → Expression node
  | identifier {node : Node} : Named .expression node → Expression node
  | operation {node inner : Node} {operator : Operator} {operands children : List Node} :
      node.Is .expression [] [inner] → inner.Is (.operator operator) [] children →
      Operands operator operands children → operator.Takes operands.length →
      (∀ operand ∈ operands, Expression operand) → Expression node
  | conditional {node inner test consequent alternative first second third : Node} :
      node.Is .expression [] [inner] →
      inner.Is .conditional [] [test, consequent, alternative] → test.Is .test [] [first] →
      consequent.Is .consequent [] [second] → alternative.Is .alternative [] [third] →
      Expression first → Expression second → Expression third → Expression node
  | function {node inner body : Node} : node.Is .expression [] [inner] → FunctionOf body inner →
      Expression body → Expression node
  | namedCall {node inner callee : Node} {arguments : List Node} : node.Is .expression [] [inner] →
      CallOf callee arguments inner → Named .calleeName callee →
      (∀ argument ∈ arguments, Expression argument) → Expression node
  | functionCall {node inner callee body : Node} {arguments : List Node} :
      node.Is .expression [] [inner] → CallOf callee arguments inner → FunctionOf body callee →
      Expression body → (∀ argument ∈ arguments, Expression argument) → Expression node

/-! ## Statements -/

inductive Printed (printed : Node) : Node → Prop
  | number {node : Node} {keyword : String} : node.Is .printNum [keyword] [printed] →
      capitals keyword.toList = "PRINT-NUM" → Printed printed node
  | boolean {node : Node} {keyword : String} : node.Is .printBool [keyword] [printed] →
      capitals keyword.toList = "PRINT-BOOL" → Printed printed node

inductive Statement : Node → Prop
  | bare {node inner : Node} : node.Is .statement [] [inner] → Expression inner → Statement node
  | definition {node inner name value : Node} : node.Is .statement [] [inner] →
      inner.Is .definition [] [name, value] → Named .definedName name → Expression value →
      Statement node
  | print {node inner printed : Node} : node.Is .statement [] [inner] → Printed printed inner →
      Expression printed → Statement node

inductive Program : Node → Prop
  | intro {node list first : Node} {rest : List Node} : node.Is .program [] [list] →
      Gathered .statementList (first :: rest) list →
      (∀ statement ∈ first :: rest, Statement statement) → Program node

end Shape

end TypedLisp
