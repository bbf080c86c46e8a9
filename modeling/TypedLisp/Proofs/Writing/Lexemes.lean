import TypedLisp.Proofs.Grammar
import TypedLisp.Proofs.Lexing.Kinds
import TypedLisp.Proofs.Node.Lines

/-! The lexemes that a tree is written with.

Parentheses and keywords follow from the kinds of the nodes, names, literals and
print keywords are leaves. So a tree has the lexemes of the tokens it was derived
from, but for the letter case of other keywords and the zeros of numbers.
-/

set_option autoImplicit false

namespace TypedLisp

open Grammar

namespace NodeKind

def opening (leaves : List String) : NodeKind → List String
  | .definition => ["(", "define"]
  | .printNum | .printBool => "(" :: leaves
  | .conditional => ["(", "if"]
  | .function => ["(", "fun", "("]
  -- The parameters before a body are closed with it, since an empty list is a node as well.
  | .body => [")"]
  | .call => ["("]
  | .operator operation => ["(", operation.symbol]
  | .number | .boolean | .identifier => leaves
  | _ => []

def closing : NodeKind → List String
  | .definition | .printNum | .printBool | .conditional | .function | .call | .operator _ => [")"]
  | _ => []

def isSilent (kind : NodeKind) : Bool :=
  kind.opening ["nil"] == [] && kind.closing == []

end NodeKind

namespace Node

mutual

/-- The lexemes of a tree in the order in which they are written. -/
def lexemes : Node → List String
  | ⟨kind, _, _, leaves, children⟩ => kind.opening leaves ++ (lexemesAll children ++ kind.closing)

def lexemesAll : List Node → List String
  | [] => []
  | node :: siblings => lexemes node ++ lexemesAll siblings

end

theorem lexemes_eq (node : Node) :
    node.lexemes = node.kind.opening node.leaves ++ (lexemesAll node.children ++ node.kind.closing) := by
  cases node
  rfl

@[simp] theorem lexemesAll_nil : lexemesAll [] = [] := rfl

@[simp] theorem lexemesAll_cons (node : Node) (nodes : List Node) :
    lexemesAll (node :: nodes) = node.lexemes ++ lexemesAll nodes := rfl

mutual

theorem lexemes_mapLines (change : Nat → Nat) :
    (node : Node) → (node.mapLines change).lexemes = node.lexemes
  | ⟨kind, valueType, line, leaves, children⟩ => by
      rw [mapLines, lexemes, lexemes, lexemesAll_mapLines]

theorem lexemesAll_mapLines (change : Nat → Nat) :
    (nodes : List Node) → lexemesAll (mapLinesAll change nodes) = lexemesAll nodes
  | [] => rfl
  | node :: siblings => by
      rw [mapLinesAll, lexemesAll, lexemesAll, lexemes_mapLines, lexemesAll_mapLines]

end

theorem lexemes_of_isSilent {node : Node} (silent : node.kind.isSilent)
    (bare : node.leaves = [] ∨ node.leaves = ["nil"]) : node.lexemes = lexemesAll node.children := by
  rw [lexemes_eq]
  rcases bare with bare | bare <;>
    cases kind : node.kind <;> simp_all [NodeKind.isSilent, NodeKind.opening, NodeKind.closing]

theorem lexemes_wrap {kind : NodeKind} (silent : kind.isSilent) (inner : Node) :
    (wrap kind inner).lexemes = inner.lexemes :=
  (lexemes_of_isSilent silent (.inl rfl)).trans (List.append_nil _)

theorem lexemes_expression (inner : Node) : (expression inner).lexemes = inner.lexemes :=
  (lexemes_of_isSilent rfl (.inl rfl)).trans (List.append_nil _)

theorem lexemes_gather {kind : NodeKind} (silent : kind.isSilent) (emptyLine : Nat) :
    (items : List Node) → (gather kind emptyLine items).lexemes = lexemesAll items
  | [] => lexemes_of_isSilent silent (.inr rfl)
  | [_] => (List.append_nil _).symm
  | _ :: _ :: _ => lexemes_of_isSilent silent (.inl rfl)

theorem lexemesAll_wrap {kind : NodeKind} (silent : kind.isSilent) (nodes : List Node) :
    lexemesAll (nodes.map (wrap kind)) = lexemesAll nodes := by
  induction nodes with
  | nil => rfl
  | cons node nodes ih => rw [List.map_cons, lexemesAll_cons, lexemes_wrap silent, ih, lexemesAll_cons]

end Node

def Token.written (token : Token) : String :=
  match token.kind with
  | .operator operation => operation.symbol
  | .leftParen => "("
  | .rightParen => ")"
  | .number value => String.ofList (Decimal.write value)
  | .boolean value => if value then "#t" else "#f"
  | .identifier | .printNum | .printBool => token.lexeme
  | .define => "define"
  | .function => "fun"
  | .conditional => "if"

namespace Grammar

theorem lexemesAll_operandNodes (operator : Operator) (operands : List Node) :
    Node.lexemesAll (operandNodes operator operands) = Node.lexemesAll operands := by
  rcases operandNodes_cases operator operands with
    ⟨-, flat⟩ | ⟨first, second, third, rest, -, rfl, listed⟩
  · rw [flat]
  · have list : (expressionList (second :: third :: rest) second.line).lexemes =
        Node.lexemesAll (second :: third :: rest) :=
      Node.lexemes_of_isSilent rfl (.inl rfl)
    rw [listed]
    simp [list]

theorem lexemes_operation (operator : Operator) (operands : List Node) (line : Nat) :
    (operation operator operands line).lexemes =
      "(" :: operator.symbol :: (Node.lexemesAll operands ++ [")"]) := by
  rw [← lexemesAll_operandNodes operator operands]
  rfl

theorem lexemes_conditional (condition consequent alternative : Node) (line : Nat) :
    (conditional condition consequent alternative line).lexemes =
      "(" :: "if" :: (condition.lexemes ++ (consequent.lexemes ++ (alternative.lexemes ++ [")"]))) := by
  have tests : (Node.wrap .test condition).lexemes = condition.lexemes := Node.lexemes_wrap rfl condition
  have consequents : (Node.wrap .consequent consequent).lexemes = consequent.lexemes :=
    Node.lexemes_wrap rfl consequent
  have alternatives : (Node.wrap .alternative alternative).lexemes = alternative.lexemes :=
    Node.lexemes_wrap rfl alternative
  rw [Node.lexemes_eq]
  simp [conditional, Node.untyped, NodeKind.opening, NodeKind.closing, tests, consequents, alternatives]

theorem lexemes_parameters (listLine : Nat) (parameters : List Token) :
    (Node.gather .parameterList listLine (parameters.map parameter)).lexemes =
      parameters.map Token.lexeme := by
  have names : Node.lexemesAll (parameters.map parameter) = parameters.map Token.lexeme := by
    induction parameters with
    | nil => rfl
    | cons token parameters ih => rw [List.map_cons, List.map_cons, Node.lexemesAll_cons, ih]; rfl
  rw [Node.lexemes_gather rfl, names]

theorem lexemes_function (parameters : List Token) (listLine : Nat) (body : Node) (line : Nat) :
    (function parameters listLine body line).lexemes =
      "(" :: "fun" :: "(" :: (parameters.map Token.lexeme ++ ")" :: (body.lexemes ++ [")"])) := by
  have list := lexemes_parameters listLine parameters
  have bodies : (Node.wrap .body body).lexemes = ")" :: body.lexemes := by
    rw [Node.lexemes_eq]
    simp [Node.wrap, Node.untyped, NodeKind.opening, NodeKind.closing]
  rw [Node.lexemes_eq]
  simp [function, Node.untyped, NodeKind.opening, NodeKind.closing, list, bodies]

theorem lexemes_call (callee : Node) (arguments : List Node) (line closeLine : Nat) :
    (call callee arguments line closeLine).lexemes =
      "(" :: (callee.lexemes ++ (Node.lexemesAll arguments ++ [")"])) := by
  have list : (Node.gather .argumentList closeLine (arguments.map (.wrap .argument))).lexemes =
      Node.lexemesAll arguments := by
    rw [Node.lexemes_gather rfl, Node.lexemesAll_wrap rfl]
  rw [Node.lexemes_eq]
  simp [call, Node.call, NodeKind.opening, NodeKind.closing, list]

theorem lexemes_definition (name : Token) (value : Node) (line : Nat) :
    (Grammar.definition name value line).lexemes =
      "(" :: "define" :: name.lexeme :: (value.lexemes ++ [")"]) := by
  have named : (Node.wrap .definedName (.identifier name.lexeme name.line)).lexemes = [name.lexeme] := rfl
  rw [Node.lexemes_eq]
  simp [Grammar.definition, Node.untyped, NodeKind.opening, NodeKind.closing, named]

theorem lexemes_print {kind : NodeKind} (opens : ∀ leaves, kind.opening leaves = "(" :: leaves)
    (closes : kind.closing = [")"]) (keyword : String) (printed : Node) (line : Nat) :
    (Node.print kind keyword printed line).lexemes = "(" :: keyword :: (printed.lexemes ++ [")"]) := by
  rw [Node.lexemes_eq]
  simp [Node.print, opens, closes]

/-! ## Derived trees -/

/-- A tree is written as the tokens it is derived by. -/
def Writes (tokens : List Token) (tree : Node) : Prop :=
  tokens.map Token.written = tree.lexemes

theorem Many.writes {tokens : List Token} {nodes : List Node} (many : Many Writes tokens nodes) :
    tokens.map Token.written = Node.lexemesAll nodes := by
  induction many with
  | nil => rfl
  | cons first _ ih => rw [List.map_append, ih, first, Node.lexemesAll_cons]

theorem Parens.written {opening closing : Token} (parens : Parens opening closing) :
    opening.written = "(" ∧ closing.written = ")" := by
  simp [Token.written, parens.opens, parens.closes]

theorem written_of_identifier {token : Token} (kind : token.kind = .identifier) :
    token.written = token.lexeme := by
  simp [Token.written, kind]

theorem Function.writes {tokens : List Token} {node : Node} (form : Function Writes tokens node) :
    Writes tokens node := by
  cases form with
  | @intro opening head listOpening listClosing closing parameters body node parens kind listParens
      names writes =>
    have heads : head.written = "fun" := by simp [Token.written, kind]
    have list : parameters.map Token.written = parameters.map Token.lexeme :=
      List.map_congr_left fun token member => written_of_identifier (names token member)
    have bodies : body.map Token.written = node.lexemes := writes
    rw [Writes, lexemes_function]
    simp [parens.written, listParens.written, heads, list, bodies]

-- Induction on the derivation; nodes without tokens of their own write what their parts write.
theorem Expression.writes {tokens : List Token} {tree : Node} (derives : Expression tokens tree) :
    Writes tokens tree := by
  induction derives with
  | number kind => simp [Writes, Token.written, kind, Node.lexemes_expression]; rfl
  | boolean kind => simp [Writes, Token.written, kind, Node.lexemes_expression]; rfl
  | identifier kind => simp [Writes, Token.written, kind, Node.lexemes_expression]; rfl
  | @operation opening head closing operator inner operands parens kind _ _ writes =>
    have heads : head.written = operator.symbol := by simp [Token.written, kind]
    have parts := (writes.imp fun ⟨_, writes⟩ => writes).writes
    rw [Writes, Node.lexemes_expression, lexemes_operation]
    simp [parens.written, heads, parts]
  | @conditional opening head closing tests consequents alternatives condition consequent alternative
      parens kind _ _ _ first second third =>
    have heads : head.written = "if" := by simp [Token.written, kind]
    unfold Writes at first second third
    rw [Writes, Node.lexemes_expression, lexemes_conditional]
    simp [parens.written, heads, first, second, third]
  | function _ writes =>
    rw [Writes, Node.lexemes_expression]
    exact (writes.imp fun ⟨_, writes⟩ => writes).writes
  | @namedCall opening name closing inner arguments parens kind _ writes =>
    have parts := (writes.imp fun ⟨_, writes⟩ => writes).writes
    have callee : (calleeName name).lexemes = [name.lexeme] := rfl
    rw [Writes, Node.lexemes_expression, lexemes_call, callee]
    simp [parens.written, written_of_identifier kind, parts]
  | @functionCall opening closing callee inner node arguments parens _ _ form writes =>
    have parts := (writes.imp fun ⟨_, writes⟩ => writes).writes
    have function : callee.map Token.written = node.lexemes :=
      (form.imp fun ⟨_, writes⟩ => writes).writes
    rw [Writes, Node.lexemes_expression, lexemes_call]
    simp [parens.written, function, parts]

theorem Statement.writes {tokens : List Token} {node : Node} (derives : Statement tokens node) :
    Writes tokens node := by
  have statement (body : Node) : (Node.wrap .statement body).lexemes = body.lexemes :=
    Node.lexemes_wrap rfl body
  cases derives with
  | bare derives =>
    rw [Writes, statement]
    exact derives.writes
  | @definition opening head name closing inner value parens kind named derives =>
    have heads : head.written = "define" := by simp [Token.written, kind]
    have body : inner.map Token.written = value.lexemes := derives.writes
    rw [Writes, statement, lexemes_definition]
    simp [parens.written, heads, written_of_identifier named, body]
  | @printNum opening head closing inner printed parens kind derives =>
    have heads : head.written = head.lexeme := by simp [Token.written, kind]
    have body : inner.map Token.written = printed.lexemes := derives.writes
    rw [Writes, statement, lexemes_print (fun _ => rfl) rfl]
    simp [parens.written, heads, body]
  | @printBool opening head closing inner printed parens kind derives =>
    have heads : head.written = head.lexeme := by simp [Token.written, kind]
    have body : inner.map Token.written = printed.lexemes := derives.writes
    rw [Writes, statement, lexemes_print (fun _ => rfl) rfl]
    simp [parens.written, heads, body]

theorem Program.writes {tokens : List Token} {tree : Node} (program : Program tokens tree) :
    Writes tokens tree := by
  obtain ⟨statements, many, tree?⟩ := program
  cases statements with
  | nil => cases tree?
  | cons first rest =>
    cases tree?
    rw [Writes, Node.lexemes_wrap rfl, Node.lexemes_gather rfl]
    exact (many.imp fun derives => derives.writes).writes

end Grammar

end TypedLisp
