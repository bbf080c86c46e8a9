import Mathlib.Data.List.Forall2
import TypedLisp.Proofs.Lexing.Literals
import TypedLisp.Proofs.Node.Positions
import TypedLisp.Proofs.Writing.Adequacy

/-! Numbers in a text and in its tree.

A literal becomes a number token if 32 bits hold what it denotes. By induction on the
derivation a tree has one number node for each number token, in the same order; its
leaf is the canonical numeral, which is lexed as the number again.
-/

set_option autoImplicit false

namespace TypedLisp

namespace Token

def number? (token : Token) : Option Int :=
  match token.kind with
  | .number value => some value
  | _ => none

def numberNode? (token : Token) : Option Node :=
  token.number?.map (Node.number · token.line)

theorem number?_eq_some_iff {token : Token} {value : Int} :
    token.number? = some value ↔ token.kind = .number value := by
  unfold number?
  cases token.kind <;> simp

theorem numberNode?_of_number? {token : Token} {value : Int} (number : token.number? = some value) :
    token.numberNode? = some (.number value token.line) := by
  rw [numberNode?, number, Option.map_some]

end Token

namespace Node

def numbers (tree : Node) : List Node :=
  tree.nodes.filter fun node => node.kind = .number

theorem numbers_eq (node : Node) :
    node.numbers = (if node.kind = .number then [node] else []) ++ node.children.flatMap numbers := by
  have below : (node.children.flatMap nodes).filter (fun node => node.kind = .number) =
      node.children.flatMap numbers := List.filter_flatMap
  rw [numbers, nodes_eq, List.filter_cons, below]
  by_cases number : node.kind = .number <;> simp [number]

theorem numbers_of_ne {node : Node} (other : node.kind ≠ .number) :
    node.numbers = node.children.flatMap numbers := by
  rw [numbers_eq, if_neg other, List.nil_append]

theorem numbers_number (value : Int) (line : Nat) : (number value line).numbers = [number value line] := by
  rw [numbers_eq]
  rfl

section
variable {kind : NodeKind} (other : kind ≠ .number)
include other

theorem numbers_untyped (children : List Node) (line : Nat) :
    (untyped kind children line).numbers = children.flatMap numbers :=
  numbers_of_ne other

theorem numbers_wrap (inner : Node) : (wrap kind inner).numbers = inner.numbers := by
  rw [wrap, numbers_untyped other, List.flatMap_singleton]

theorem flatMap_numbers_wrap (inners : List Node) :
    (inners.map (wrap kind)).flatMap numbers = inners.flatMap numbers := by
  rw [List.flatMap_map]
  exact List.flatMap_congr fun inner _ => numbers_wrap other inner

theorem numbers_gather (emptyLine : Nat) :
    (items : List Node) → (gather kind emptyLine items).numbers = items.flatMap numbers
  | [] => numbers_of_ne other
  | [_] => (List.flatMap_singleton ..).symm
  | _ :: _ :: _ => numbers_untyped other _ _

end

theorem numbers_expression (inner : Node) : (expression inner).numbers = inner.numbers := by
  rw [numbers_of_ne (by simp [expression]), expression, List.flatMap_singleton]

theorem numbers_identifier (name : String) (line : Nat) : (identifier name line).numbers = [] :=
  numbers_of_ne (by simp [identifier])

end Node

namespace Grammar

open Node

theorem flatMap_numbers_operandNodes (operator : Operator) (operands : List Node) :
    (operandNodes operator operands).flatMap numbers = operands.flatMap numbers := by
  rcases operandNodes_cases operator operands with
    ⟨-, flat⟩ | ⟨first, second, third, rest, -, rfl, listed⟩
  · rw [flat]
  · have list : (expressionList (second :: third :: rest) second.line).numbers =
        (second :: third :: rest).flatMap numbers :=
      numbers_of_ne (by simp [expressionList])
    rw [listed]
    simp only [List.flatMap_cons, List.flatMap_nil, list, List.append_nil]

theorem numbers_parameters (listLine : Nat) (parameters : List Token) :
    (gather .parameterList listLine (parameters.map parameter)).numbers = [] := by
  rw [numbers_gather (by simp), List.flatMap_map, List.flatMap_eq_nil_iff]
  intro token _
  rw [parameter, numbers_wrap (by simp), numbers_identifier]

/-- The number nodes of a tree are those of the number tokens that it is derived by. -/
def Numbered (tokens : List Token) (tree : Node) : Prop :=
  tree.numbers = tokens.filterMap Token.numberNode?

theorem numberNode?_eq_none {token : Token} (other : ∀ value, token.kind ≠ .number value) :
    token.numberNode? = none := by
  rw [Token.numberNode?, Option.map_eq_none_iff, Option.eq_none_iff_forall_ne_some]
  exact fun value number => other value (Token.number?_eq_some_iff.mp number)

theorem Parens.numberNode? {opening closing : Token} (parens : Parens opening closing) :
    opening.numberNode? = none ∧ closing.numberNode? = none :=
  ⟨numberNode?_eq_none (by simp [parens.opens]), numberNode?_eq_none (by simp [parens.closes])⟩

theorem filterMap_names {names : List Token} (all : ∀ token ∈ names, token.kind = .identifier) :
    names.filterMap Token.numberNode? = [] := by
  rw [List.filterMap_eq_nil_iff]
  exact fun token member => numberNode?_eq_none (by simp [all token member])

theorem Many.numbered {tokens : List Token} {nodes : List Node} (many : Many Numbered tokens nodes) :
    nodes.flatMap numbers = tokens.filterMap Token.numberNode? := by
  induction many with
  | nil => rfl
  | cons first _ ih => rw [List.flatMap_cons, first, ih, List.filterMap_append]

section
variable {tokens inner : List Token} {node : Node}

theorem filterMap_form {opening head closing : Token} (tokens : List Token)
    (parens : Parens opening closing) (other : ∀ value, head.kind ≠ .number value) :
    (opening :: head :: (tokens ++ [closing])).filterMap Token.numberNode? =
      tokens.filterMap Token.numberNode? := by
  simp [parens.numberNode?, numberNode?_eq_none other]

theorem numbered_identifier {token : Token} (kind : token.kind = .identifier) :
    Numbered [token] (.identifier token.lexeme token.line) := by
  have none : token.numberNode? = Option.none := numberNode?_eq_none (by simp [kind])
  rw [Numbered, numbers_identifier, List.filterMap_cons_none none]
  rfl

theorem Function.numbered (form : Function Numbered tokens node) : Numbered tokens node := by
  cases form with
  | @intro opening head listOpening listClosing closing parameters body node parens kind listParens
      names numbered =>
    have below : (function parameters listOpening.line node opening.line).numbers = node.numbers := by
      rw [function, numbers_untyped (by simp), List.flatMap_cons, List.flatMap_singleton,
        numbers_parameters, numbers_wrap (by simp), List.nil_append]
    have heads : head.numberNode? = none := numberNode?_eq_none (by simp [kind])
    have parts : body.filterMap Token.numberNode? = node.numbers := Eq.symm numbered
    rw [Numbered, below]
    simp [parens.numberNode?, listParens.numberNode?, heads, filterMap_names names, parts]

theorem Numbered.call {opening closing : Token} {arguments : List Node} (callee : Numbered inner node)
    (parens : Parens opening closing) (many : Many Numbered tokens arguments) :
    Numbered (opening :: (inner ++ (tokens ++ [closing])))
      (Grammar.call node arguments opening.line closing.line) := by
  have below : (Grammar.call node arguments opening.line closing.line).numbers =
      node.numbers ++ arguments.flatMap numbers := by
    rw [Grammar.call, numbers_of_ne (by simp [Node.call]), Node.call, List.flatMap_cons,
      List.flatMap_singleton, numbers_gather (by simp), flatMap_numbers_wrap (by simp)]
  rw [Numbered, below, callee, many.numbered]
  simp [parens.numberNode?]

end

theorem numbered_of_part {tokens : List Token} {node : Node}
    (part : ∃ _ : Expression tokens node, Numbered tokens node) : Numbered tokens node :=
  part.elim fun _ numbered => numbered

-- Both sides are split along the form: its own tokens have no number but for a literal, and its parts
-- have theirs by induction.
theorem Expression.numbered {tokens : List Token} {tree : Node} (derives : Expression tokens tree) :
    Numbered tokens tree := by
  induction derives with
  | @number token value kind =>
    have own := Token.numberNode?_of_number? (Token.number?_eq_some_iff.mpr kind)
    rw [Numbered, numbers_expression, numbers_number, List.filterMap_cons_some own]
    rfl
  | @boolean token value kind =>
    have none : token.numberNode? = Option.none := numberNode?_eq_none (by simp [kind])
    rw [Numbered, numbers_expression, List.filterMap_cons_none none]
    exact numbers_of_ne (by simp [Node.boolean])
  | identifier kind =>
    rw [Numbered, numbers_expression]
    exact numbered_identifier kind
  | @operation opening head closing operator inner operands parens kind _ _ parts =>
    rw [Numbered, numbers_expression, Grammar.operation, numbers_of_ne (by simp),
      flatMap_numbers_operandNodes, filterMap_form _ parens (by simp [kind])]
    exact (parts.imp numbered_of_part).numbered
  | @conditional opening head closing tests consequents alternatives condition consequent alternative
      parens kind _ _ _ first second third =>
    have parts : Many Numbered (tests ++ (consequents ++ alternatives))
        [condition, consequent, alternative] :=
      .cons first (.cons second (.single third))
    have heads : ∀ value, head.kind ≠ .number value := by simp [kind]
    have whole := filterMap_form (tests ++ (consequents ++ alternatives)) parens heads
    simp only [List.append_assoc] at whole
    rw [Numbered, numbers_expression, Grammar.conditional, numbers_untyped (by simp), whole,
      ← parts.numbered]
    simp only [List.flatMap_cons, List.flatMap_nil, numbers_wrap, ne_eq, reduceCtorEq, not_false_eq_true]
  | function _ numbered =>
    rw [Numbered, numbers_expression]
    exact (numbered.imp numbered_of_part).numbered
  | @namedCall opening name closing inner arguments parens kind _ parts =>
    have callee : Numbered [name] (calleeName name) := by
      rw [Numbered, calleeName, numbers_wrap (by simp)]
      exact numbered_identifier kind
    rw [Numbered, numbers_expression]
    exact callee.call parens (parts.imp numbered_of_part)
  | functionCall parens _ _ callee parts =>
    rw [Numbered, numbers_expression]
    exact (callee.imp numbered_of_part).numbered.call parens (parts.imp numbered_of_part)

theorem Statement.numbered {tokens : List Token} {node : Node} (derives : Statement tokens node) :
    Numbered tokens node := by
  have prints {kind : NodeKind} (other : kind ≠ .number) (keyword : String) (printed : Node) (line : Nat) :
      (Node.print kind keyword printed line).numbers = printed.numbers := by
    rw [numbers_of_ne (by simpa [Node.print] using other), Node.print, List.flatMap_singleton]
  cases derives with
  | bare derives =>
    rw [Numbered, numbers_wrap (by simp)]
    exact derives.numbered
  | @definition opening head name closing inner value parens kind named derives =>
    have heads : ∀ value, head.kind ≠ .number value := by simp [kind]
    have whole := filterMap_form (name :: inner) parens heads
    have none : name.numberNode? = Option.none := numberNode?_eq_none (by simp [named])
    simp only [List.cons_append] at whole
    rw [Numbered, numbers_wrap (by simp), Grammar.definition, numbers_untyped (by simp), whole,
      List.filterMap_cons_none none, ← derives.numbered, List.flatMap_cons, List.flatMap_singleton,
      numbers_wrap (by simp), numbers_identifier, List.nil_append]
  | printNum parens kind derives | printBool parens kind derives =>
    rw [Numbered, numbers_wrap (by simp), prints (by simp), filterMap_form _ parens (by simp [kind])]
    exact derives.numbered

theorem Program.numbered {tokens : List Token} {tree : Node} (program : Program tokens tree) :
    Numbered tokens tree := by
  obtain ⟨statements, many, tree?⟩ := program
  cases statements with
  | nil => cases tree?
  | cons first rest =>
    cases tree?
    rw [Numbered, numbers_wrap (by simp), numbers_gather (by simp)]
    exact (many.imp fun derives => derives.numbered).numbered

end Grammar

/-! ## Literals, tokens and leaves -/

theorem Token.IsSpelled.tokenize {token : Token} (spelled : token.IsSpelled) :
    tokenize token.lexeme = .ok [{ token with line := 1 }] := by
  have longest := spelled.isLexeme.longest (.inl rfl)
  have tiles : Tiles 1 ([] ++ (token.lexeme.toList ++ [])) _ _ [] :=
    .token (List.forall_mem_nil _) longest spelled.classifies .done
  rw [String.ofList_toList, List.append_nil] at tiles
  exact tokenize_eq_ok_iff_tiles.mpr ⟨_, _, tiles, List.forall_mem_nil _⟩

/-- The leaf that a number is written as in a tree. -/
structure IsLeafOf (value : Int) (node : Node) (leaf : String) : Prop where
  alone : node.leaves = [leaf]
  canonical : Canonical leaf.toList
  denotes : literalValue leaf.toList = value
  lexed : tokenize leaf = .ok [⟨.number value, leaf, 1⟩]

theorem isLeafOf_write {value : Int} (low : -2147483648 ≤ value) (high : value ≤ 2147483647) (line : Nat) :
    IsLeafOf value (.number value line) (String.ofList (Decimal.write value)) := by
  obtain ⟨canonical, denotes⟩ := canonical_iff.mpr (String.toList_ofList (l := Decimal.write value))
  exact ⟨rfl, canonical, denotes, (spelled_number low high).tokenize⟩

theorem leaves_of_numbers {source : String} {tree : Node} (parsed : parse source = .ok tree) :
    ∃ tokens, tokenize source = .ok tokens ∧
      List.Forall₂ (fun value node => ∃ leaf, IsLeafOf value node leaf) (tokens.filterMap Token.number?)
        tree.numbers := by
  obtain ⟨tokens, lexes, program⟩ := program_of_parse parsed
  refine ⟨tokens, lexes, ?_⟩
  have lexed := lexed_of_tokenize lexes
  rw [program.numbered]
  clear parsed program lexes
  induction tokens with
  | nil => exact .nil
  | cons token tokens ih =>
    obtain ⟨⟨_, classifies⟩, others⟩ := List.forall_mem_cons.mp lexed
    cases number : token.number? with
    | none =>
      have node : token.numberNode? = none := by rw [Token.numberNode?, number, Option.map_none]
      rw [List.filterMap_cons_none number, List.filterMap_cons_none node]
      exact ih others
    | some value =>
      rw [Token.number?_eq_some_iff.mp number] at classifies
      obtain ⟨low, high⟩ := classifies.number_inv
      rw [List.filterMap_cons_some number,
        List.filterMap_cons_some (Token.numberNode?_of_number? number)]
      exact .cons ⟨_, isLeafOf_write low high token.line⟩ (ih others)

/-- A literal of any length is the number it denotes if 32 bits hold it and a fault if not, and in a tree
numbers are written without the zeros that the text may have before them. -/
theorem number_literals (source : String) :
    (∀ tokens line blanks text literal after, Tiles 1 source.toList tokens line (blanks ++ text) →
      AllBlank blanks → LongestLiteral text literal after →
      (∀ value, tokens ++ [⟨.number value, String.ofList literal, line + blanks.count '\n'⟩] <+:
          (Lexer.ofSource source).lexAll.tokens ↔
        value = literalValue literal ∧ -2147483648 ≤ value ∧ value ≤ 2147483647) ∧
      (tokenize source = .error ⟨.overflow (String.ofList literal), line + blanks.count '\n'⟩ ∧
          (Lexer.ofSource source).lexAll.tokens = tokens ↔
        ¬ (-2147483648 ≤ literalValue literal ∧ literalValue literal ≤ 2147483647))) ∧
    ∀ tree, parse source = .ok tree → ∃ tokens, tokenize source = .ok tokens ∧
      List.Forall₂ (fun value node => ∃ leaf, IsLeafOf value node leaf) (tokens.filterMap Token.number?)
        tree.numbers := by
  refine ⟨?_, fun tree parsed => leaves_of_numbers parsed⟩
  intro tokens line blanks text literal after tiles blank longest
  exact ⟨literal_token_iff tiles blank longest, literal_overflow_iff tiles blank longest⟩

/-- Zeros do not make a literal too long, and the least integer that is refused is one beyond the range. -/
theorem number_literals_zeros :
    ([⟨.leftParen, "(", 1⟩, ⟨.operator .sub, "-", 1⟩] ++ [⟨.number 12, "000000000012", 1⟩] <+:
        (Lexer.ofSource "(- 000000000012\n-007)").lexAll.tokens) ∧
      (∃ tree tokens, parse "(- 000000000012\n-007)" = .ok tree ∧
        tokenize "(- 000000000012\n-007)" = .ok tokens ∧
        List.Forall₂ (fun value node => ∃ leaf, IsLeafOf value node leaf) (tokens.filterMap Token.number?)
          tree.numbers ∧
        tree.numbers = [.number 12 1, .number (-7) 2]) ∧
      tokenize "-2147483649" = .error ⟨.overflow "-2147483649", 1⟩ := by
  have space : AllBlank [' '] := List.forall_mem_singleton.mpr rfl
  have none : AllBlank [] := List.forall_mem_nil _
  refine ⟨?_, ?_, ?_⟩
  · have tiles : Tiles 1 "(- 000000000012\n-007)".toList
        [⟨.leftParen, "(", 1⟩, ⟨.operator .sub, "-", 1⟩] 1 ([' '] ++ "000000000012\n-007)".toList) :=
      .token none (longestLexeme?_eq_some_iff.mp rfl) (.sign (by decide))
        (.token none (longestLexeme?_eq_some_iff.mp rfl) (.sign (by decide)) .done)
    have longest : LongestLiteral "000000000012\n-007)".toList "000000000012".toList "\n-007)".toList :=
      longestLiteral_iff.mpr ⟨longestLexeme?_eq_some_iff.mp (by decide),
        _, .positive (by decide) (List.all_eq_true.mp (by decide))⟩
    have value : literalValue "000000000012".toList = 12 := by decide
    obtain ⟨literals, -⟩ := number_literals "(- 000000000012\n-007)"
    obtain ⟨token, -⟩ := literals _ _ _ _ _ _ tiles space longest
    exact (token 12).mpr ⟨value.symm, by decide, by decide⟩
  · have numbers : (parse "(- 000000000012\n-007)").map Node.numbers =
        .ok [.number 12 1, .number (-7) 2] := by decide +kernel
    cases parsed : parse "(- 000000000012\n-007)" with
    | error error =>
      rw [parsed] at numbers
      cases numbers
    | ok tree =>
      rw [parsed] at numbers
      obtain ⟨-, leaves⟩ := number_literals "(- 000000000012\n-007)"
      obtain ⟨tokens, lexes, each⟩ := leaves tree parsed
      exact ⟨tree, tokens, rfl, lexes, each, Except.ok.inj numbers⟩
  · have longest : LongestLiteral "-2147483649".toList "-2147483649".toList [] :=
      longestLiteral_iff.mpr ⟨longestLexeme?_eq_some_iff.mp (by decide),
        _, .negative (by decide) (List.all_eq_true.mp (by decide))⟩
    obtain ⟨literals, -⟩ := number_literals "-2147483649"
    obtain ⟨-, overflow⟩ := literals [] 1 [] _ _ _ .done none longest
    exact (overflow.mpr (by decide)).1

end TypedLisp
