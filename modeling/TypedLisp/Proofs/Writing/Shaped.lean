import TypedLisp.Proofs.Node.Shapes

/-! Derived trees have the documented shapes.

The grammar builds every node with the leaves and the children that its shape asks
for. That the leaves are texts of tokens follows from the tokens: each has the kind
of its lexeme.
-/

set_option autoImplicit false

namespace TypedLisp

open Grammar

/-! ## Kinds of tokens -/

theorem Classifies.identifier_inv {text : List Char} (classifies : Classifies text .identifier) :
    Word text ∧ capitals text ∉ reservedWords.map Prod.fst := by
  cases classifies with
  | identifier word free => exact ⟨word, free⟩
  | reserved _ member =>
    have table : ∀ entry ∈ reservedWords, entry.2 ≠ .identifier := by decide
    exact absurd rfl (table _ member)
  | sign member =>
    have table : ∀ entry ∈ signs, entry.2 ≠ .identifier := by decide
    exact absurd rfl (table _ member)

theorem Classifies.number_inv {text : List Char} {value : Int}
    (classifies : Classifies text (.number value)) : -2147483648 ≤ value ∧ value ≤ 2147483647 := by
  have table : ∀ entry ∈ reservedWords ++ signs, ∀ value, entry.2 ≠ .number value := by
    simp [reservedWords, signs]
  cases classifies with
  | numeral _ low high => exact ⟨low, high⟩
  | reserved _ member => exact absurd rfl (table _ (List.mem_append_left _ member) value)
  | sign member => exact absurd rfl (table _ (List.mem_append_right _ member) value)

theorem Classifies.capitals_eq {text : List Char} {kind : TokenKind} {word : String}
    (classifies : Classifies text kind) (worded : kind ∈ [.printNum, .printBool])
    (member : (word, kind) ∈ reservedWords) : capitals text = word := by
  have once : ∀ kind ∈ [TokenKind.printNum, .printBool], ∀ entry ∈ reservedWords, ∀ other ∈ reservedWords,
      entry.2 = kind → other.2 = kind → entry.1 = other.1 := by decide
  cases classifies with
  | numeral | identifier => simp at worded
  | reserved _ found => exact once kind worded _ found _ member rfl rfl
  | sign found =>
    have table : ∀ entry ∈ signs, entry.2 ∉ [TokenKind.printNum, .printBool] := by decide
    exact absurd worded (table _ found)

/-! ## Builders -/

namespace Shape

theorem is_wrap (kind : NodeKind) (inner : Node) : (Node.wrap kind inner).Is kind [] [inner] :=
  ⟨rfl, rfl, rfl⟩

theorem is_expression (inner : Node) : (Node.expression inner).Is .expression [] [inner] :=
  ⟨rfl, rfl, rfl⟩

theorem gathered_gather (kind : NodeKind) (emptyLine : Nat) :
    (items : List Node) → Gathered kind items (.gather kind emptyLine items)
  | [] => .none ⟨rfl, rfl, rfl⟩
  | [_] => .one
  | _ :: _ :: _ => .more ⟨rfl, rfl, rfl⟩

theorem wrapped_map (kind : NodeKind) (inners : List Node) :
    Wrapped kind inners (inners.map (.wrap kind)) := by
  induction inners with
  | nil => exact .nil
  | cons inner inners ih => exact .cons (is_wrap kind inner) ih

theorem tail_operandTail (first : Node) (rest : List Node) :
    Tail (first :: rest) (operandTail first rest) := by
  cases rest with
  | nil => exact .one
  | cons => exact .more ⟨rfl, rfl, rfl⟩

theorem operands_operandNodes {operator : Operator} {operands : List Node}
    (takes : operator.Takes operands.length) :
    Operands operator operands (operandNodes operator operands) := by
  have few (less : operands.length < 2) : operator.variadic = false := by
    cases operator <;> first | rfl | exact absurd takes (by simp only [Operator.Takes]; omega)
  match operands with
  | [] => exact .fixed (few (by simp))
  | [_] => exact .fixed (few (by simp))
  | first :: second :: rest =>
    cases variadic : operator.variadic with
    | true =>
      simp only [operandNodes, variadic, if_true]
      exact .variadic variadic (tail_operandTail second rest)
    | false =>
      have kept : operandNodes operator (first :: second :: rest) = first :: second :: rest := by
        simp [operandNodes, variadic]
      rw [kept]
      exact .fixed variadic

end Shape

/-! ## Derivations -/

namespace Grammar

def Lexed (tokens : List Token) : Prop :=
  ∀ token ∈ tokens, Classifies token.lexeme.toList token.kind

/-- From such tokens a node has some shape. -/
def Shaped (HasShape : Node → Prop) (tokens : List Token) (node : Node) : Prop :=
  Lexed tokens → HasShape node

section
variable {tokens : List Token} {node : Node} {nodes : List Node} {HasShape : Node → Prop}

theorem Lexed.of_cons {token : Token} (lexed : Lexed (token :: tokens)) :
    Classifies token.lexeme.toList token.kind ∧ Lexed tokens :=
  List.forall_mem_cons.mp lexed

theorem Lexed.of_append {more : List Token} (lexed : Lexed (tokens ++ more)) :
    Lexed tokens ∧ Lexed more :=
  List.forall_mem_append.mp lexed

theorem Many.shaped (many : Many (Shaped HasShape) tokens nodes) (lexed : Lexed tokens) :
    ∀ node ∈ nodes, HasShape node := by
  induction many with
  | nil => exact List.forall_mem_nil _
  | cons first _ ih =>
    obtain ⟨here, later⟩ := lexed.of_append
    exact List.forall_mem_cons.mpr ⟨first here, ih later⟩

theorem shape_identifier {token : Token} (kind : token.kind = .identifier)
    (classifies : Classifies token.lexeme.toList token.kind) :
    Shape.Identifier (.identifier token.lexeme token.line) := by
  obtain ⟨word, free⟩ := Classifies.identifier_inv (kind ▸ classifies)
  exact .intro ⟨rfl, rfl, rfl⟩ word free

theorem Function.shaped (form : Function (Shaped HasShape) tokens node) (lexed : Lexed tokens) :
    ∃ body, Shape.FunctionOf body node ∧ HasShape body := by
  cases form with
  | @intro opening head listOpening listClosing closing parameters body node parens kind listParens
      names shaped =>
    obtain ⟨list, rest⟩ := lexed.of_cons.2.of_cons.2.of_cons.2.of_append
    have inner := rest.of_cons.2.of_append.1
    refine ⟨node, .intro ⟨rfl, rfl, rfl⟩ (Shape.gathered_gather _ _ _) ?_ (Shape.is_wrap _ _),
      shaped inner⟩
    intro parameter member
    obtain ⟨token, listed, rfl⟩ := List.mem_map.mp member
    exact .intro (Shape.is_wrap _ _) (shape_identifier (names token listed) (list token listed))

theorem shape_call (callee : Node) (arguments : List Node) (line closeLine : Nat) :
    Shape.CallOf callee arguments (call callee arguments line closeLine) :=
  .intro ⟨rfl, rfl, rfl⟩ (Shape.gathered_gather _ _ _) (Shape.wrapped_map _ _)

theorem Expression.shaped {tree : Node} (derives : Expression tokens tree) :
    Shaped Shape.Expression tokens tree := by
  induction derives with
  | number kind =>
    intro lexed
    obtain ⟨low, high⟩ := Classifies.number_inv (kind ▸ lexed.of_cons.1)
    exact .number (Shape.is_expression _) ⟨rfl, rfl, rfl⟩ low high
  | boolean kind => exact fun _ => .boolean (Shape.is_expression _) ⟨rfl, rfl, rfl⟩
  | identifier kind =>
    exact fun lexed => .identifier (.intro (Shape.is_expression _) (shape_identifier kind lexed.of_cons.1))
  | operation parens kind many takes shaped =>
    intro lexed
    have inner := lexed.of_cons.2.of_cons.2.of_append.1
    exact .operation (Shape.is_expression _) ⟨rfl, rfl, rfl⟩ (Shape.operands_operandNodes takes) takes
      ((shaped.imp fun ⟨_, shaped⟩ => shaped).shaped inner)
  | conditional parens kind _ _ _ first second third =>
    intro lexed
    obtain ⟨tests, rest⟩ := lexed.of_cons.2.of_cons.2.of_append
    obtain ⟨consequents, rest⟩ := rest.of_append
    exact .conditional (Shape.is_expression _) ⟨rfl, rfl, rfl⟩ (Shape.is_wrap _ _) (Shape.is_wrap _ _)
      (Shape.is_wrap _ _) (first tests) (second consequents) (third rest.of_append.1)
  | function _ shaped =>
    intro lexed
    obtain ⟨body, function, shape⟩ := (shaped.imp fun ⟨_, shaped⟩ => shaped).shaped lexed
    exact .function (Shape.is_expression _) function shape
  | namedCall parens kind many shaped =>
    intro lexed
    obtain ⟨named, rest⟩ := lexed.of_cons.2.of_cons
    exact .namedCall (Shape.is_expression _) (shape_call _ _ _ _)
      (.intro (Shape.is_wrap _ _) (shape_identifier kind named))
      ((shaped.imp fun ⟨_, shaped⟩ => shaped).shaped rest.of_append.1)
  | functionCall parens form many shapedForm shaped =>
    intro lexed
    obtain ⟨callee, rest⟩ := lexed.of_cons.2.of_append
    obtain ⟨body, function, shape⟩ := (shapedForm.imp fun ⟨_, shaped⟩ => shaped).shaped callee
    exact .functionCall (Shape.is_expression _) (shape_call _ _ _ _) function shape
      ((shaped.imp fun ⟨_, shaped⟩ => shaped).shaped rest.of_append.1)

theorem Statement.shaped (derives : Statement tokens node) : Shaped Shape.Statement tokens node := by
  cases derives with
  | bare derives => exact fun lexed => .bare (Shape.is_wrap _ _) (derives.shaped lexed)
  | definition parens kind named derives =>
    intro lexed
    obtain ⟨name, rest⟩ := lexed.of_cons.2.of_cons.2.of_cons
    exact .definition (Shape.is_wrap _ _) ⟨rfl, rfl, rfl⟩
      (.intro (Shape.is_wrap _ _) (shape_identifier named name)) (derives.shaped rest.of_append.1)
  | printNum parens kind derives =>
    intro lexed
    obtain ⟨keyword, rest⟩ := lexed.of_cons.2.of_cons
    have same := Classifies.capitals_eq (kind ▸ keyword) (by decide)
      (show ("PRINT-NUM", .printNum) ∈ reservedWords by decide)
    exact .print (Shape.is_wrap _ _) (.number ⟨rfl, rfl, rfl⟩ same) (derives.shaped rest.of_append.1)
  | printBool parens kind derives =>
    intro lexed
    obtain ⟨keyword, rest⟩ := lexed.of_cons.2.of_cons
    have same := Classifies.capitals_eq (kind ▸ keyword) (by decide)
      (show ("PRINT-BOOL", .printBool) ∈ reservedWords by decide)
    exact .print (Shape.is_wrap _ _) (.boolean ⟨rfl, rfl, rfl⟩ same) (derives.shaped rest.of_append.1)

theorem Program.shaped {tree : Node} (program : Program tokens tree) (lexed : Lexed tokens) :
    Shape.Program tree := by
  obtain ⟨statements, many, tree?⟩ := program
  cases statements with
  | nil => cases tree?
  | cons first rest =>
    cases tree?
    exact .intro (Shape.is_wrap _ _) (Shape.gathered_gather _ _ _)
      ((many.imp fun derives => derives.shaped).shaped lexed)

end

end Grammar

end TypedLisp
