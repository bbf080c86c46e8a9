import TypedLisp.Node.Build
import TypedLisp.Token

/-! The grammar: which tree a list of tokens derives.

Types play no part in it. A tree has the type that its structure gives each node,
and a list of expressions without a common type has none; whether the operands of
a tree fit is a question of its own.
-/

set_option autoImplicit false

namespace TypedLisp

/-- How many operands an operator takes. -/
def Operator.Takes (count : Nat) : Operator → Prop
  | .sub | .div | .mod | .greater | .smaller => count = 2
  | .add | .mul | .equal | .and | .or => 2 ≤ count
  | .not => count = 1

/-- What an operator asks of each of its operands; its result has the type of that class. -/
def Operator.expects : Operator → OperandClass
  | .add | .sub | .mul | .div | .mod | .greater | .smaller | .equal => .number
  | .and | .or | .not => .boolean

theorem Operator.expects_eq (operator : Operator) : operator.expects = operator.operandClass := by
  cases operator <;> rfl

namespace Grammar

/-! ## Tree shapes -/

def expressionList (items : List Node) (line : Nat) : Node :=
  ⟨.expressionList, (sharedType (items.map Node.operand)).toOption, line, [], items⟩

def operandTail (first : Node) : List Node → Node
  | [] => first
  | second :: rest => expressionList (first :: second :: rest) first.line

def operandNodes (operator : Operator) : List Node → List Node
  | first :: second :: rest =>
      if operator.variadic then [first, operandTail second rest] else first :: second :: rest
  | operands => operands

-- Two operands of a variadic operator are not listed either, so there are these two cases only.
theorem operandNodes_cases (operator : Operator) (operands : List Node) :
    ((operator.variadic = false ∨ operands.length ≤ 2) ∧ operandNodes operator operands = operands) ∨
    ∃ first second third rest, operator.variadic ∧ operands = first :: second :: third :: rest ∧
      operandNodes operator operands =
        [first, expressionList (second :: third :: rest) second.line] := by
  cases variadic : operator.variadic with
  | false =>
    refine .inl ⟨.inl rfl, ?_⟩
    match operands with
    | [] | [_] => rfl
    | _ :: _ :: _ => simp [operandNodes, variadic]
  | true =>
    match operands with
    | [] | [_] => exact .inl ⟨.inr (by simp), rfl⟩
    | [first, second] => exact .inl ⟨.inr (by simp), by simp [operandNodes, variadic, operandTail]⟩
    | first :: second :: third :: rest =>
      exact .inr ⟨first, second, third, rest, rfl, rfl, by simp [operandNodes, variadic, operandTail]⟩

def operation (operator : Operator) (operands : List Node) (line : Nat) : Node :=
  ⟨.operator operator, some operator.expects.valueType, line, [], operandNodes operator operands⟩

def conditional (condition consequent alternative : Node) (line : Nat) : Node :=
  .untyped .conditional
    [.wrap .test condition, .wrap .consequent consequent, .wrap .alternative alternative] line

def parameter (token : Token) : Node :=
  .wrap .parameter (.identifier token.lexeme token.line)

def function (parameters : List Token) (listLine : Nat) (body : Node) (line : Nat) : Node :=
  .untyped .function
    [.gather .parameterList listLine (parameters.map parameter), .wrap .body body] line

def calleeName (token : Token) : Node :=
  .wrap .calleeName (.identifier token.lexeme token.line)

/-- An empty list of arguments is on the line of the parenthesis that closes the call. -/
def call (callee : Node) (arguments : List Node) (line closeLine : Nat) : Node :=
  .call callee (.gather .argumentList closeLine (arguments.map (.wrap .argument))) line

def definition (name : Token) (value : Node) (line : Nat) : Node :=
  .untyped .definition [.wrap .definedName (.identifier name.lexeme name.line), value] line

/-! ## Derivations -/

structure Parens (opening closing : Token) : Prop where
  opens : opening.kind = .leftParen
  closes : closing.kind = .rightParen

/-- `item*`: the tokens of some items, one item after another. -/
inductive Many (Item : List Token → Node → Prop) : List Token → List Node → Prop
  | nil : Many Item [] []
  | cons {first rest : List Token} {node : Node} {nodes : List Node} :
      Item first node → Many Item rest nodes → Many Item (first ++ rest) (node :: nodes)

/-- `'(' FUN '(' id* ')' expr ')'` -/
inductive Function (Expression : List Token → Node → Prop) : List Token → Node → Prop
  | intro {opening head listOpening listClosing closing : Token} {parameters body : List Token}
      {node : Node} :
      Parens opening closing → head.kind = .function → Parens listOpening listClosing →
      (∀ token ∈ parameters, token.kind = .identifier) → Expression body node →
      Function Expression
        (opening :: head :: listOpening :: (parameters ++ listClosing :: (body ++ [closing])))
        (function parameters listOpening.line node opening.line)

/-- `expr`, with a constructor for each alternative. -/
inductive Expression : List Token → Node → Prop
  | number {token : Token} {value : Int} : token.kind = .number value →
      Expression [token] (.expression (.number value token.line))
  | boolean {token : Token} {value : Bool} : token.kind = .boolean value →
      Expression [token] (.expression (.boolean value token.line))
  | identifier {token : Token} : token.kind = .identifier →
      Expression [token] (.expression (.identifier token.lexeme token.line))
  | operation {opening head closing : Token} {operator : Operator} {tokens : List Token}
      {operands : List Node} :
      Parens opening closing → head.kind = .operator operator →
      Many Expression tokens operands → operator.Takes operands.length →
      Expression (opening :: head :: (tokens ++ [closing]))
        (.expression (operation operator operands opening.line))
  | conditional {opening head closing : Token} {tests consequents alternatives : List Token}
      {condition consequent alternative : Node} :
      Parens opening closing → head.kind = .conditional → Expression tests condition →
      Expression consequents consequent → Expression alternatives alternative →
      Expression (opening :: head :: (tests ++ (consequents ++ (alternatives ++ [closing]))))
        (.expression (conditional condition consequent alternative opening.line))
  | function {tokens : List Token} {node : Node} : Function Expression tokens node →
      Expression tokens (.expression node)
  | namedCall {opening name closing : Token} {tokens : List Token} {arguments : List Node} :
      Parens opening closing → name.kind = .identifier → Many Expression tokens arguments →
      Expression (opening :: name :: (tokens ++ [closing]))
        (.expression (call (calleeName name) arguments opening.line closing.line))
  | functionCall {opening closing : Token} {callee tokens : List Token} {node : Node}
      {arguments : List Node} :
      Parens opening closing → Function Expression callee node →
      Many Expression tokens arguments →
      Expression (opening :: (callee ++ (tokens ++ [closing])))
        (.expression (call node arguments opening.line closing.line))

/-- `stmt`, with a constructor for each alternative. -/
inductive Statement : List Token → Node → Prop
  | bare {tokens : List Token} {node : Node} : Expression tokens node →
      Statement tokens (.wrap .statement node)
  | definition {opening head name closing : Token} {tokens : List Token} {node : Node} :
      Parens opening closing → head.kind = .define → name.kind = .identifier →
      Expression tokens node →
      Statement (opening :: head :: name :: (tokens ++ [closing]))
        (.wrap .statement (definition name node opening.line))
  | printNum {opening head closing : Token} {tokens : List Token} {node : Node} :
      Parens opening closing → head.kind = .printNum → Expression tokens node →
      Statement (opening :: head :: (tokens ++ [closing]))
        (.wrap .statement (.print .printNum head.lexeme node opening.line))
  | printBool {opening head closing : Token} {tokens : List Token} {node : Node} :
      Parens opening closing → head.kind = .printBool → Expression tokens node →
      Statement (opening :: head :: (tokens ++ [closing]))
        (.wrap .statement (.print .printBool head.lexeme node opening.line))

/-- `stmt+`, the statements standing alone or in a list of at least two. -/
def Program (tokens : List Token) (tree : Node) : Prop :=
  ∃ statements, Many Statement tokens statements ∧ Node.program? statements = some tree

/-! ## Sequences -/

section
variable {Item Other : List Token → Node → Prop} {tokens : List Token} {nodes : List Node}

theorem Many.imp (weaken : ∀ {tokens node}, Item tokens node → Other tokens node)
    (many : Many Item tokens nodes) : Many Other tokens nodes := by
  induction many with
  | nil => exact .nil
  | cons item _ ih => exact .cons (weaken item) ih

theorem Function.imp {node : Node}
    (weaken : ∀ {tokens node}, Item tokens node → Other tokens node)
    (form : Function Item tokens node) : Function Other tokens node := by
  cases form with
  | intro parens kind listParens names body => exact .intro parens kind listParens names (weaken body)

theorem Many.append {later : List Token} {others : List Node} (many : Many Item tokens nodes)
    (rest : Many Item later others) : Many Item (tokens ++ later) (nodes ++ others) := by
  induction many with
  | nil => exact rest
  | cons item _ ih => exact List.append_assoc .. ▸ .cons item ih

theorem Many.single {node : Node} (item : Item tokens node) : Many Item tokens [node] :=
  List.append_nil tokens ▸ .cons item .nil

theorem Many.snoc {later : List Token} {node : Node} (many : Many Item tokens nodes)
    (item : Item later node) : Many Item (tokens ++ later) (nodes ++ [node]) :=
  many.append (.single item)

theorem Program.single {node : Node} (derives : Statement tokens node) :
    Program tokens (.wrap .program node) :=
  ⟨[node], .single derives, rfl⟩

theorem Many.forall_mem {P : Node → Prop} (holds : ∀ {tokens node}, Item tokens node → P node)
    (many : Many Item tokens nodes) : ∀ node ∈ nodes, P node := by
  induction many with
  | nil => simp
  | cons item _ ih => exact List.forall_mem_cons.mpr ⟨holds item, ih⟩

end

-- Expressions stand inside sequences and functions, so the generated recursor has a motive for each
-- of these. One motive is enough: the other two say that it holds of every part.
/-- Induction over expressions; the parts of an expression come with their own hypotheses. -/
@[induction_eliminator]
theorem Expression.induction
    {motive : (tokens : List Token) → (tree : Node) → Expression tokens tree → Prop}
    (number : ∀ {token : Token} {value : Int} (kind : token.kind = .number value),
      motive _ _ (.number kind))
    (boolean : ∀ {token : Token} {value : Bool} (kind : token.kind = .boolean value),
      motive _ _ (.boolean kind))
    (identifier : ∀ {token : Token} (kind : token.kind = .identifier),
      motive _ _ (.identifier kind))
    (operation : ∀ {opening head closing : Token} {operator : Operator} {tokens : List Token}
      {operands : List Node} (parens : Parens opening closing)
      (kind : head.kind = .operator operator) (many : Many Expression tokens operands)
      (takes : operator.Takes operands.length),
      Many (fun tokens tree => ∃ derives, motive tokens tree derives) tokens operands →
      motive _ _ (.operation parens kind many takes))
    (conditional : ∀ {opening head closing : Token} {tests consequents alternatives : List Token}
      {condition consequent alternative : Node} (parens : Parens opening closing)
      (kind : head.kind = .conditional) (first : Expression tests condition)
      (second : Expression consequents consequent) (third : Expression alternatives alternative),
      motive _ _ first → motive _ _ second → motive _ _ third →
      motive _ _ (.conditional parens kind first second third))
    (function : ∀ {tokens : List Token} {node : Node} (form : Function Expression tokens node),
      Function (fun tokens tree => ∃ derives, motive tokens tree derives) tokens node →
      motive _ _ (.function form))
    (namedCall : ∀ {opening name closing : Token} {tokens : List Token} {arguments : List Node}
      (parens : Parens opening closing) (kind : name.kind = .identifier)
      (many : Many Expression tokens arguments),
      Many (fun tokens tree => ∃ derives, motive tokens tree derives) tokens arguments →
      motive _ _ (.namedCall parens kind many))
    (functionCall : ∀ {opening closing : Token} {callee tokens : List Token} {node : Node}
      {arguments : List Node} (parens : Parens opening closing)
      (form : Function Expression callee node) (many : Many Expression tokens arguments),
      Function (fun tokens tree => ∃ derives, motive tokens tree derives) callee node →
      Many (fun tokens tree => ∃ derives, motive tokens tree derives) tokens arguments →
      motive _ _ (.functionCall parens form many))
    {tokens : List Token} {tree : Node} (derives : Expression tokens tree) :
    motive tokens tree derives := by
  refine @Expression.rec motive
    (fun tokens trees _ => Many (fun tokens tree => ∃ derives, motive tokens tree derives) tokens trees)
    (fun tokens tree _ => Function (fun tokens tree => ∃ derives, motive tokens tree derives) tokens tree)
    number boolean identifier operation conditional function namedCall functionCall
    .nil ?more ?intro tokens tree derives
  case more =>
    intro first rest node nodes item _ one others
    exact .cons ⟨item, one⟩ others
  case intro =>
    intro opening head listOpening listClosing closing parameters body node
      parens kind listParens names expression one
    exact .intro parens kind listParens names ⟨expression, one⟩

theorem Expression.starts {tokens : List Token} {tree : Node} (derives : Expression tokens tree) :
    ∃ first rest, tokens = first :: rest ∧ first.kind ≠ .rightParen ∧ first.line = tree.line := by
  induction derives with
  | number kind => exact ⟨_, _, rfl, by simp [kind], rfl⟩
  | boolean kind => exact ⟨_, _, rfl, by simp [kind], rfl⟩
  | identifier kind => exact ⟨_, _, rfl, by simp [kind], rfl⟩
  | operation parens _ _ _ _ => exact ⟨_, _, rfl, by simp [parens.opens], rfl⟩
  | conditional parens _ _ _ _ _ _ _ => exact ⟨_, _, rfl, by simp [parens.opens], rfl⟩
  | function form _ =>
    cases form with
    | intro parens _ _ _ _ => exact ⟨_, _, rfl, by simp [parens.opens], rfl⟩
  | namedCall parens _ _ _ => exact ⟨_, _, rfl, by simp [parens.opens], rfl⟩
  | functionCall parens _ _ _ _ => exact ⟨_, _, rfl, by simp [parens.opens], rfl⟩

theorem Expression.kind_eq {tokens : List Token} {tree : Node} (derives : Expression tokens tree) :
    tree.kind = .expression := by
  cases derives <;> rfl

end Grammar

end TypedLisp
