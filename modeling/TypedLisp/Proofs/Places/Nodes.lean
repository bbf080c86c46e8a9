import TypedLisp.Proofs.Node.Positions
import TypedLisp.Proofs.Places.Pieces
import TypedLisp.Proofs.Places.Tokens
import TypedLisp.Proofs.Writing.Adequacy

/-! The lines of the nodes of a tree.

By induction on its derivation every node has its line from the token that it starts
at, and in preorder these tokens come in their order. So the lines of the nodes count
newlines as those of tokens do, and never go back.
-/

set_option autoImplicit false

namespace TypedLisp

namespace Grammar

/-! ## Derived trees -/

def linesOf (nodes : List Node) : List Nat :=
  (nodes.flatMap Node.nodes).map Node.line

theorem linesOf_cons (node : Node) (nodes : List Node) :
    linesOf (node :: nodes) = linesOf [node] ++ linesOf nodes := by
  simp [linesOf]

theorem linesOf_singleton (node : Node) : linesOf [node] = node.line :: linesOf node.children := by
  rw [linesOf, List.flatMap_singleton, Node.nodes_eq]
  rfl

def StartsOn (tokens : List Token) (line : Nat) : Prop :=
  ∃ first rest, tokens = first :: rest ∧ first.line = line

/-- The nodes of a tree have their lines from the tokens it is written as, the first of which is on the
line of the tree. -/
structure Traced (tokens : List Token) (tree : Node) : Prop where
  writes : Writes tokens tree
  starts : StartsOn tokens tree.line
  anchored : ∀ lead trail, Anchored (lead ++ (tokens ++ trail)) (lead.map Token.written) tree
  draws : Draws tokens (linesOf [tree])

theorem Many.allAnchored {tokens : List Token} {nodes : List Node} (many : Many Traced tokens nodes)
    (lead trail : List Token) :
    AllAnchored (lead ++ (tokens ++ trail)) (lead.map Token.written) nodes := by
  induction many generalizing lead with
  | nil => exact .nil
  | @cons first rest node nodes traced _ ih =>
    have own := traced.anchored lead (rest ++ trail)
    have others := ih (lead ++ first)
    have written : first.map Token.written = node.lexemes := traced.writes
    rw [List.map_append, written] at others
    simp only [List.append_assoc] at own others ⊢
    exact .cons own others

theorem Many.draws {tokens : List Token} {nodes : List Node} (many : Many Traced tokens nodes) :
    Draws tokens (linesOf nodes) := by
  induction many with
  | nil => exact .nil
  | @cons _ _ node nodes traced _ ih =>
    rw [linesOf_cons]
    exact traced.draws.append ih

section
variable {tokens inner : List Token} {node : Node}

theorem hasLine_of_starts (writes : Writes tokens node) (kind : node.kind ≠ .body)
    (starts : StartsOn tokens node.line) (lead trail : List Token) :
    HasLine (lead ++ (tokens ++ trail)) (lead.map Token.written) node := by
  obtain ⟨first, rest, rfl, line⟩ := starts
  refine ⟨lead, first, rest ++ trail, rfl, .covers ?_ ?_, line⟩
  · rw [Node.skipped, if_neg kind, List.append_nil]
  · rw [Node.covered, if_neg kind]
    exact writes

/-- A node is traced to its tokens if what is below it is. -/
theorem Traced.of_below (writes : Writes tokens node) (kind : node.kind ≠ .body)
    (starts : StartsOn tokens node.line)
    (below : ∀ lead trail, AllAnchored (lead ++ (tokens ++ trail))
      (lead.map Token.written ++ node.kind.opening node.leaves) node.children)
    (draws : Draws tokens (linesOf node.children)) : Traced tokens node where
  writes := writes
  starts := starts
  anchored lead trail := .of_children (hasLine_of_starts writes kind starts lead trail) (below lead trail)
  draws := by
    obtain ⟨first, rest, rfl, line⟩ := starts
    rw [linesOf_singleton, ← line]
    exact .take draws

theorem Traced.of_parts (opening closing : List Token) (many : Many Traced inner node.children)
    (opens : opening.map Token.written = node.kind.opening node.leaves)
    (closes : closing.map Token.written = node.kind.closing) (kind : node.kind ≠ .body)
    (starts : StartsOn (opening ++ (inner ++ closing)) node.line) :
    Traced (opening ++ (inner ++ closing)) node := by
  refine .of_below ?_ kind starts (fun lead trail => ?_) ?_
  · have written := (many.imp fun traced => traced.writes).writes
    rw [Writes, List.map_append, List.map_append, opens, closes, written, Node.lexemes_eq]
  · have below := many.allAnchored (lead ++ opening) (closing ++ trail)
    rw [List.map_append, opens] at below
    simpa only [List.append_assoc] using below
  · exact (many.draws.append_right closing).append_left opening

theorem Traced.of_form {opening head closing : Token} {word : String} (parens : Parens opening closing)
    (heads : head.written = word) (many : Many Traced inner node.children)
    (opens : node.kind.opening node.leaves = ["(", word]) (closes : node.kind.closing = [")"])
    (line : opening.line = node.line) : Traced (opening :: head :: (inner ++ [closing])) node := by
  have written : [opening, head].map Token.written = node.kind.opening node.leaves := by
    simp [opens, parens.written, heads]
  have written' : [closing].map Token.written = node.kind.closing := by simp [closes, parens.written]
  refine .of_parts [opening, head] [closing] many written written' ?_ ⟨opening, _, rfl, line⟩
  intro kind
  rw [kind] at closes
  cases closes

theorem Traced.of_silent (many : Many Traced tokens node.children) (silent : node.kind.isSilent)
    (starts : StartsOn tokens node.line) : Traced tokens node := by
  have opens : node.kind.opening node.leaves = [] ∧ node.kind.closing = [] ∧ node.kind ≠ .body := by
    cases kind : node.kind <;> simp_all [NodeKind.isSilent, NodeKind.opening, NodeKind.closing]
  obtain ⟨opens, closes, kind⟩ := opens
  have whole : [] ++ (tokens ++ []) = tokens := List.append_nil tokens
  have traced := Traced.of_parts [] [] many opens.symm closes.symm kind
    (whole.symm ▸ starts)
  rwa [whole] at traced

theorem Traced.leaf {token : Token} (alone : node.children = [])
    (opens : [token.written] = node.kind.opening node.leaves) (closes : node.kind.closing = [])
    (kind : node.kind ≠ .body) (line : token.line = node.line) : Traced [token] node := by
  have many : Many Traced [] node.children := alone ▸ .nil
  exact .of_parts [token] [] many opens closes.symm kind ⟨token, [], rfl, line⟩

theorem traced_identifier {token : Token} (kind : token.kind = .identifier) :
    Traced [token] (.identifier token.lexeme token.line) :=
  .leaf rfl (congrArg ([·]) (written_of_identifier kind)) rfl (by simp [Node.identifier]) rfl

theorem Traced.wrap {kind : NodeKind} (traced : Traced tokens node) (silent : kind.isSilent) :
    Traced tokens (.wrap kind node) :=
  .of_silent (.single traced) silent traced.starts

theorem Traced.expression (traced : Traced tokens node) : Traced tokens (.expression node) :=
  .of_silent (.single traced) rfl traced.starts

/-! ## Lists -/

theorem Many.traced_starts {first : Node} {rest : List Node} (many : Many Traced tokens (first :: rest)) :
    StartsOn tokens first.line := by
  cases many with
  | cons traced _ =>
    obtain ⟨token, later, rfl, line⟩ := traced.starts
    exact ⟨token, _, rfl, line⟩

theorem Many.traced_single (many : Many Traced tokens [node]) : Traced tokens node := by
  cases many with
  | cons traced none =>
    cases none
    rwa [List.append_nil]

theorem Many.traced_wrap {nodes : List Node} (many : Many Traced tokens nodes) (kind : NodeKind)
    (silent : kind.isSilent) : Many Traced tokens (nodes.map (.wrap kind)) := by
  induction many with
  | nil => exact .nil
  | cons traced _ ih => exact .cons (traced.wrap silent) ih

theorem Many.traced_gather {first : Node} {rest : List Node}
    (many : Many Traced tokens (first :: rest)) (kind : NodeKind) (silent : kind.isSilent)
    (emptyLine : Nat) :
    Traced tokens (.gather kind emptyLine (first :: rest)) := by
  cases rest with
  | nil => exact many.traced_single
  | cons second rest => exact .of_silent many silent many.traced_starts

theorem Many.traced_operandNodes {operands : List Node} (many : Many Traced tokens operands)
    (operator : Operator) : Many Traced tokens (operandNodes operator operands) := by
  rcases operandNodes_cases operator operands with
    ⟨-, flat⟩ | ⟨first, second, third, rest, -, rfl, listed⟩
  · rwa [flat]
  · rw [listed]
    cases many with
    | cons traced later => exact .cons traced (.single (.of_silent later rfl later.traced_starts))

/-! ## Forms -/

theorem Many.traced_parameters {parameters : List Token}
    (names : ∀ token ∈ parameters, token.kind = .identifier) :
    Many Traced parameters (parameters.map parameter) := by
  induction parameters with
  | nil => exact .nil
  | cons token parameters ih =>
    obtain ⟨name, names⟩ := List.forall_mem_cons.mp names
    have first : Traced [token] (parameter token) := (traced_identifier name).wrap rfl
    exact .cons first (ih names)

theorem anchored_parameters {listOpening : Token} {parameters : List Token}
    (opens : listOpening.kind = .leftParen) (names : ∀ token ∈ parameters, token.kind = .identifier)
    (lead trail : List Token) :
    Anchored (lead ++ listOpening :: (parameters ++ trail)) (lead.map Token.written ++ ["("])
      (.gather .parameterList listOpening.line (parameters.map parameter)) := by
  have written : listOpening.written = "(" := by simp [Token.written, opens]
  have before : (lead ++ [listOpening]).map Token.written = lead.map Token.written ++ ["("] := by
    simp [written]
  cases parameters with
  | nil =>
    refine .of_children ⟨lead, listOpening, trail, rfl, .noParameters rfl rfl opens before, rfl⟩ .nil
  | cons token parameters =>
    have list := ((Many.traced_parameters names).traced_gather .parameterList rfl
      listOpening.line).anchored (lead ++ [listOpening]) trail
    rw [before, List.append_assoc] at list
    exact list

theorem draws_parameters (listOpening : Token) {parameters : List Token}
    (names : ∀ token ∈ parameters, token.kind = .identifier) :
    Draws (listOpening :: parameters)
      (linesOf [.gather .parameterList listOpening.line (parameters.map parameter)]) := by
  cases parameters with
  | nil => exact .take .nil
  | cons token parameters =>
    exact .skip ((Many.traced_parameters names).traced_gather .parameterList rfl _).draws

theorem Traced.anchored_body {listClosing : Token} (traced : Traced tokens node)
    (closes : listClosing.kind = .rightParen) (lead trail : List Token) :
    Anchored (lead ++ listClosing :: (tokens ++ trail)) (lead.map Token.written) (.wrap .body node) := by
  have written : listClosing.written = ")" := by simp [Token.written, closes]
  have before : (lead ++ [listClosing]).map Token.written = lead.map Token.written ++ [")"] := by
    simp [written]
  have inner := traced.anchored (lead ++ [listClosing]) trail
  obtain ⟨first, rest, rfl, line⟩ := traced.starts
  refine .of_children ⟨lead ++ [listClosing], first, rest ++ trail, by simp, .covers before ?_, line⟩ ?_
  · exact traced.writes.trans (List.append_nil _).symm
  · rw [before, List.append_assoc] at inner
    exact .cons inner .nil

theorem Traced.draws_around (traced : Traced tokens node) (kind : NodeKind) :
    Draws tokens (linesOf [.wrap kind node]) := by
  have draws := traced.draws
  obtain ⟨first, rest, rfl, line⟩ := traced.starts
  rw [linesOf_singleton]
  exact line ▸ .take draws

theorem Function.traced (form : Function Traced tokens node) : Traced tokens node := by
  have writes := (form.imp fun traced => traced.writes).writes
  cases form with
  | @intro opening head listOpening listClosing closing parameters body node parens kind listParens
      names traced =>
    refine .of_below writes (by simp [function, Node.untyped]) ⟨opening, _, rfl, rfl⟩
      (fun lead trail => ?_) ?_
    · have whole : lead ++ (opening :: head :: listOpening ::
          (parameters ++ listClosing :: (body ++ [closing])) ++ trail) =
          lead ++ opening :: head :: listOpening ::
            (parameters ++ listClosing :: (body ++ closing :: trail)) := by simp
      have heads : head.written = "fun" := by simp [Token.written, kind]
      have named : parameters.map Token.written = parameters.map Token.lexeme :=
        List.map_congr_left fun token member => written_of_identifier (names token member)
      have list := anchored_parameters listParens.opens names (lead ++ [opening, head])
        (listClosing :: (body ++ closing :: trail))
      have bodies := traced.anchored_body listParens.closes
        (lead ++ opening :: head :: listOpening :: parameters) (closing :: trail)
      simp only [List.map_append, List.map_cons, parens.written, listParens.written, heads, named,
        List.append_assoc, List.cons_append, List.nil_append, List.map_nil] at list bodies
      rw [whole]
      -- The body follows the list directly, as the parenthesis between them is written with the body.
      refine .cons list (.cons ?_ .nil)
      rw [lexemes_parameters, List.append_assoc]
      exact bodies
    · have list := draws_parameters listOpening names
      have bodies := ((traced.draws_around .body).append_right [closing]).append_left [listClosing]
      have below := (list.append bodies).append_left [opening, head]
      rwa [← linesOf_cons] at below

theorem anchored_arguments {closing : Token} {arguments : List Node}
    (many : Many Traced tokens arguments) (closes : closing.kind = .rightParen) (lead trail : List Token) :
    Anchored (lead ++ (tokens ++ closing :: trail)) (lead.map Token.written)
      (.gather .argumentList closing.line (arguments.map (.wrap .argument))) := by
  cases arguments with
  | nil =>
    cases many
    exact .of_children ⟨lead, closing, trail, rfl, .noArguments rfl rfl closes rfl, rfl⟩ .nil
  | cons first rest =>
    have list := (many.traced_wrap .argument rfl).traced_gather .argumentList rfl closing.line
    exact list.anchored lead (closing :: trail)

theorem draws_arguments (closing : Token) {arguments : List Node} (many : Many Traced tokens arguments) :
    Draws (tokens ++ [closing])
      (linesOf [.gather .argumentList closing.line (arguments.map (.wrap .argument))]) := by
  cases arguments with
  | nil =>
    cases many
    exact .take .nil
  | cons first rest =>
    have list := (many.traced_wrap .argument rfl).traced_gather .argumentList rfl closing.line
    exact list.draws.append_right [closing]

theorem Traced.call {opening closing : Token} {arguments : List Node} (callee : Traced inner node)
    (parens : Parens opening closing) (many : Many Traced tokens arguments) :
    Traced (opening :: (inner ++ (tokens ++ [closing])))
      (call node arguments opening.line closing.line) := by
  have writes : Writes (opening :: (inner ++ (tokens ++ [closing])))
      (Grammar.call node arguments opening.line closing.line) := by
    have called : inner.map Token.written = node.lexemes := callee.writes
    have parts := (many.imp fun traced => traced.writes).writes
    rw [Writes, lexemes_call]
    simp [parens.written, called, parts]
  refine .of_below writes (by simp [Grammar.call, Node.call]) ⟨opening, _, rfl, rfl⟩
    (fun lead trail => ?_) ?_
  · have whole : lead ++ (opening :: (inner ++ (tokens ++ [closing])) ++ trail) =
        lead ++ opening :: (inner ++ (tokens ++ closing :: trail)) := by simp
    have called := callee.anchored (lead ++ [opening]) (tokens ++ closing :: trail)
    have list := anchored_arguments many parens.closes (lead ++ opening :: inner) trail
    have written : inner.map Token.written = node.lexemes := callee.writes
    simp only [List.map_append, List.map_cons, parens.written, written, List.append_assoc,
      List.cons_append, List.nil_append, List.map_nil] at called list
    rw [whole]
    refine .cons called (.cons ?_ .nil)
    rw [List.append_assoc]
    exact list
  · have below := (callee.draws.append (draws_arguments closing many)).append_left [opening]
    rwa [← linesOf_cons] at below

end

/-! ## Derivations -/

theorem traced_of_part {tokens : List Token} {node : Node}
    (part : ∃ _ : Expression tokens node, Traced tokens node) : Traced tokens node :=
  part.elim fun _ traced => traced

-- Every form is anchored at its parenthesis; its parts come later in the text, one after the other.
theorem Expression.traced {tokens : List Token} {tree : Node} (derives : Expression tokens tree) :
    Traced tokens tree := by
  induction derives with
  | number kind =>
    exact .expression (.leaf rfl (by simp [Token.written, kind, Node.number, NodeKind.opening]) rfl
      (by simp [Node.number]) rfl)
  | boolean kind =>
    exact .expression (.leaf rfl (by simp [Token.written, kind, Node.boolean, NodeKind.opening]) rfl
      (by simp [Node.boolean]) rfl)
  | identifier kind => exact (traced_identifier kind).expression
  | @operation opening head closing operator inner operands parens kind _ _ traced =>
    have parts := (traced.imp traced_of_part).traced_operandNodes operator
    have heads : head.written = operator.symbol := by simp [Token.written, kind]
    exact .expression (.of_form parens heads parts rfl rfl rfl)
  | @conditional opening head closing tests consequents alternatives condition consequent alternative
      parens kind _ _ _ first second third =>
    have parts : Many Traced (tests ++ (consequents ++ alternatives))
        [.wrap .test condition, .wrap .consequent consequent, .wrap .alternative alternative] :=
      .cons (first.wrap rfl) (.cons (second.wrap rfl) (.single (third.wrap rfl)))
    have heads : head.written = "if" := by simp [Token.written, kind]
    have traced : Traced _ (Grammar.conditional condition consequent alternative opening.line) :=
      .of_form parens heads parts rfl rfl rfl
    simpa only [List.append_assoc] using traced.expression
  | function _ traced => exact (traced.imp traced_of_part).traced.expression
  | @namedCall opening name closing inner arguments parens kind _ traced =>
    have callee : Traced [name] (calleeName name) := (traced_identifier kind).wrap rfl
    exact (callee.call parens (traced.imp traced_of_part)).expression
  | functionCall parens _ _ callee traced =>
    exact ((callee.imp traced_of_part).traced.call parens
      (traced.imp traced_of_part)).expression

theorem traced_print {opening head closing : Token} {kind : NodeKind} {tokens : List Token}
    {printed : Node} (parens : Parens opening closing) (keyword : head.written = head.lexeme)
    (printing : kind ∈ [.printNum, .printBool]) (traced : Traced tokens printed) :
    Traced (opening :: head :: (tokens ++ [closing]))
      (.wrap .statement (.print kind head.lexeme printed opening.line)) := by
  obtain ⟨opens, closes⟩ : kind.opening [head.lexeme] = ["(", head.lexeme] ∧ kind.closing = [")"] := by
    simp only [List.mem_cons, List.not_mem_nil, or_false] at printing
    rcases printing with rfl | rfl <;> exact ⟨rfl, rfl⟩
  exact .wrap (.of_form parens keyword (.single traced) opens closes rfl) rfl

theorem Statement.traced {tokens : List Token} {node : Node} (derives : Statement tokens node) :
    Traced tokens node := by
  cases derives with
  | bare derives => exact derives.traced.wrap rfl
  | @definition opening head name closing inner value parens kind named derives =>
    have parts : Many Traced ([name] ++ inner)
        [.wrap .definedName (.identifier name.lexeme name.line), value] :=
      .cons ((traced_identifier named).wrap rfl) (.single derives.traced)
    have heads : head.written = "define" := by simp [Token.written, kind]
    have traced : Traced _ (Grammar.definition name value opening.line) :=
      .of_form parens heads parts rfl rfl rfl
    exact traced.wrap rfl
  | printNum parens kind derives =>
    exact traced_print parens (by simp [Token.written, kind]) (by simp) derives.traced
  | printBool parens kind derives =>
    exact traced_print parens (by simp [Token.written, kind]) (by simp) derives.traced

theorem Program.traced {tokens : List Token} {tree : Node} (program : Program tokens tree) :
    Traced tokens tree := by
  obtain ⟨statements, many, tree?⟩ := program
  cases statements with
  | nil => cases tree?
  | cons first rest =>
    cases tree?
    exact ((many.imp fun derives => derives.traced).traced_gather .statementList rfl first.line).wrap rfl

end Grammar

/-- Every node of a tree that is read is on the line of the token that it starts at, one more than there
are newlines before it. So in preorder the lines do not go back. -/
theorem lines_of_nodes {source : String} {tree : Node} (parsed : parse source = .ok tree) :
    (∀ path node, tree.descend? path = some node →
      ∃ lead token trail before after, tokenize source = .ok (lead ++ token :: trail) ∧
        node.StartsAt (tree.lexemesBefore path) lead token trail ∧
        source = before ++ token.lexeme ++ after ∧ tokenize before = .ok lead ∧
        node.line = 1 + newlines before) ∧
    (tree.preorder.map fun entry => entry.2.line).Pairwise (· ≤ ·) := by
  obtain ⟨tokens, lexes, program⟩ := program_of_parse parsed
  have traced := program.traced
  constructor
  · intro path node found
    have anchored := traced.anchored [] []
    rw [List.nil_append, List.append_nil] at anchored
    obtain ⟨lead, token, trail, rfl, starts, line⟩ := anchored path node found
    obtain ⟨before, after, whole, leads, counted⟩ := place_of_token lexes
    exact ⟨lead, token, trail, before, after, lexes, starts, whole, leads, line.symm.trans counted⟩
  · have rise := traced.draws.rise (tokenize_lines_rise lexes)
    rwa [Grammar.linesOf, List.flatMap_singleton, Node.nodes, List.map_map] at rise

/-- The arguments that a call is made without are on the line of its last parenthesis. -/
theorem lines_of_nodes_call :
    ∃ tree node before lexeme after, parse "((fun (\n)\n1)\n)" = .ok tree ∧
      tree.descend? [0, 0, 0, 1] = some node ∧ node.kind = .argumentList ∧ node.line = 4 ∧
      "((fun (\n)\n1)\n)" = before ++ lexeme ++ after ∧ node.line = 1 + newlines before ∧
      (tree.preorder.map fun entry => entry.2.line).Pairwise (· ≤ ·) := by
  have list : ((parse "((fun (\n)\n1)\n)").toOption.bind (·.descend? [0, 0, 0, 1])).map
      (fun node => (node.kind, node.line)) = some (.argumentList, 4) := by decide +kernel
  cases parsed : parse "((fun (\n)\n1)\n)" with
  | error error =>
    rw [parsed] at list
    cases list
  | ok tree =>
    rw [parsed] at list
    obtain ⟨node, found, same⟩ := Option.map_eq_some_iff.mp list
    obtain ⟨kind, line⟩ := Prod.mk.inj same
    obtain ⟨lines, rise⟩ := lines_of_nodes parsed
    obtain ⟨-, token, -, before, after, -, -, whole, -, counted⟩ := lines _ node found
    exact ⟨tree, node, before, token.lexeme, after, rfl, found, kind, line, whole, counted, rise⟩

end TypedLisp
