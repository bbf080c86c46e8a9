import TypedLisp.Proofs.Grammar

/-! The grammar is unambiguous.

The first two tokens of an expression select its production, and a parenthesis
ends each sequence in it. So an expression is settled by the tokens it starts:
whatever follows, no other one starts the same way.
-/

set_option autoImplicit false

namespace TypedLisp.Grammar

/-- No other expression is found where this one is. -/
def Settles (tokens : List Token) (tree : Node) : Prop :=
  ∀ {others rest rest' : List Token} {other : Node}, Expression others other →
    tokens ++ rest = others ++ rest' → tokens = others ∧ tree = other

attribute [grind →] Parens.opens Parens.closes

@[grind →]
theorem Function.starts {Item : List Token → Node → Prop} {tokens : List Token} {node : Node}
    (form : Function Item tokens node) :
    ∃ opening head rest, tokens = opening :: head :: rest ∧
      opening.kind = .leftParen ∧ head.kind = .function := by
  cases form with
  | intro parens kind _ _ _ => exact ⟨_, _, _, rfl, parens.opens, kind⟩

theorem names_unique {names others : List Token} {closing closing' : Token} {rest rest' : List Token}
    (identifiers : ∀ token ∈ names, token.kind = .identifier)
    (identifiers' : ∀ token ∈ others, token.kind = .identifier)
    (closes : closing.kind = .rightParen) (closes' : closing'.kind = .rightParen)
    (same : names ++ closing :: rest = others ++ closing' :: rest') :
    names = others ∧ closing = closing' ∧ rest = rest' := by
  induction names generalizing others with
  | nil =>
    cases others with
    | nil => simpa using same
    | cons other others => grind
  | cons name names ih =>
    cases others with
    | nil => grind
    | cons other others =>
      rw [List.forall_mem_cons] at identifiers identifiers'
      rw [List.cons_append, List.cons_append, List.cons.injEq] at same
      obtain ⟨rfl, same⟩ := same
      obtain ⟨rfl, later⟩ := ih identifiers.2 identifiers'.2 same
      exact ⟨rfl, later⟩

theorem Many.unique {tokens others : List Token} {nodes nodes' : List Node}
    {closing closing' : Token} {rest rest' : List Token}
    (many : Many (fun tokens tree => ∃ _ : Expression tokens tree, Settles tokens tree) tokens nodes)
    (other : Many Expression others nodes')
    (closes : closing.kind = .rightParen) (closes' : closing'.kind = .rightParen)
    (same : tokens ++ closing :: rest = others ++ closing' :: rest') :
    tokens = others ∧ nodes = nodes' ∧ closing = closing' ∧ rest = rest' := by
  induction many generalizing others nodes' with
  | nil =>
    cases other with
    | nil => simpa using same
    | cons item _ =>
      -- No expression starts with the parenthesis that ends the first sequence here.
      obtain ⟨first, more, rfl, opens, -⟩ := item.starts
      grind
  | cons item _ ih =>
    obtain ⟨derives, settles⟩ := item
    cases other with
    | nil =>
      obtain ⟨first, more, rfl, opens, -⟩ := derives.starts
      grind
    | cons item' others =>
      rw [List.append_assoc, List.append_assoc] at same
      obtain ⟨rfl, rfl⟩ := settles item' same
      obtain ⟨rfl, rfl, later⟩ := ih others (List.append_cancel_left same)
      exact ⟨rfl, rfl, later⟩

theorem Function.unique {tokens others : List Token} {node other : Node} {rest rest' : List Token}
    (form : Function (fun tokens tree => ∃ _ : Expression tokens tree, Settles tokens tree) tokens node)
    (form' : Function Expression others other) (same : tokens ++ rest = others ++ rest') :
    tokens = others ∧ node = other ∧ rest = rest' := by
  cases form with
  | intro parens kind listParens names body =>
    cases form' with
    | intro parens' kind' listParens' names' body' =>
      obtain ⟨_, settles⟩ := body
      simp only [List.cons_append, List.append_assoc, List.cons.injEq] at same
      obtain ⟨rfl, rfl, rfl, same⟩ := same
      obtain ⟨rfl, rfl, later⟩ :=
        names_unique names names' listParens.closes listParens'.closes same
      obtain ⟨rfl, rfl⟩ := settles body' later
      obtain ⟨rfl, rfl⟩ := List.cons.inj (List.append_cancel_left later)
      exact ⟨rfl, rfl, rfl⟩

/-- Induction on the first derivation; the kinds of the first two tokens leave one production for
the second. -/
theorem Expression.settles {tokens : List Token} {tree : Node} (derives : Expression tokens tree) :
    Settles tokens tree := by
  induction derives with
  | number kind | boolean kind | identifier kind =>
    intro others rest rest' other derives' same
    cases derives' <;> grind
  | operation parens kind many takes settles =>
    intro others rest rest' other derives' same
    cases derives' with
    | operation parens' kind' many' takes' =>
      simp only [List.cons_append, List.append_assoc, List.cons.injEq] at same
      obtain ⟨rfl, rfl, same⟩ := same
      obtain ⟨rfl, rfl, rfl, -⟩ := settles.unique many' parens.closes parens'.closes same
      cases kind.symm.trans kind'
      exact ⟨rfl, rfl⟩
    | _ => grind
  -- Each part settles where the next one starts, the last where the parenthesis stands.
  | conditional parens kind _ _ _ settlesTest settlesConsequent settlesAlternative =>
    intro others rest rest' other derives' same
    cases derives' with
    | conditional parens' kind' test' consequent' alternative' =>
      simp only [List.cons_append, List.append_assoc, List.cons.injEq] at same
      obtain ⟨rfl, rfl, same⟩ := same
      obtain ⟨rfl, rfl⟩ := settlesTest test' same
      replace same := List.append_cancel_left same
      obtain ⟨rfl, rfl⟩ := settlesConsequent consequent' same
      replace same := List.append_cancel_left same
      obtain ⟨rfl, rfl⟩ := settlesAlternative alternative' same
      obtain ⟨rfl, -⟩ := List.cons.inj (List.append_cancel_left same)
      exact ⟨rfl, rfl⟩
    | _ => grind
  | function form settles =>
    intro others rest rest' other derives' same
    cases derives' with
    | function form' =>
      obtain ⟨rfl, rfl, -⟩ := settles.unique form' same
      exact ⟨rfl, rfl⟩
    | _ => grind
  | namedCall parens kind many settles =>
    intro others rest rest' other derives' same
    cases derives' with
    | namedCall parens' kind' many' =>
      simp only [List.cons_append, List.append_assoc, List.cons.injEq] at same
      obtain ⟨rfl, rfl, same⟩ := same
      obtain ⟨rfl, rfl, rfl, -⟩ := settles.unique many' parens.closes parens'.closes same
      exact ⟨rfl, rfl⟩
    | _ => grind
  | functionCall parens form many settlesForm settles =>
    intro others rest rest' other derives' same
    cases derives' with
    | functionCall parens' form' many' =>
      simp only [List.cons_append, List.append_assoc, List.cons.injEq] at same
      obtain ⟨rfl, same⟩ := same
      obtain ⟨rfl, rfl, same⟩ := settlesForm.unique form' same
      obtain ⟨rfl, rfl, rfl, -⟩ := settles.unique many' parens.closes parens'.closes same
      exact ⟨rfl, rfl⟩
    | _ => grind

theorem Expression.unique_before {tokens others : List Token} {tree other : Node}
    {closing closing' : Token} {rest rest' : List Token} (derives : Expression tokens tree)
    (derives' : Expression others other)
    (same : tokens ++ closing :: rest = others ++ closing' :: rest') :
    tokens = others ∧ tree = other ∧ closing = closing' := by
  obtain ⟨rfl, rfl⟩ := derives.settles derives' same
  obtain ⟨rfl, -⟩ := List.cons.inj (List.append_cancel_left same)
  exact ⟨rfl, rfl, rfl⟩

/-! ## Statements and programs -/

theorem Statement.starts {tokens : List Token} {node : Node} (derives : Statement tokens node) :
    tokens ≠ [] := by
  cases derives with
  | bare derives =>
    obtain ⟨first, more, rfl, -⟩ := derives.starts
    exact List.cons_ne_nil _ _
  | definition | printNum | printBool => exact List.cons_ne_nil _ _

-- The second token tells a definition and the two prints from each other and from every expression.
theorem Statement.unique {tokens others rest rest' : List Token} {node other : Node}
    (derives : Statement tokens node) (derives' : Statement others other)
    (same : tokens ++ rest = others ++ rest') : tokens = others ∧ node = other := by
  cases derives with
  | bare expression =>
    cases derives' with
    | bare expression' =>
      obtain ⟨rfl, rfl⟩ := expression.settles expression' same
      exact ⟨rfl, rfl⟩
    | _ => cases expression <;> grind
  | definition parens kind name expression =>
    cases derives' with
    | bare expression' => cases expression' <;> grind
    | definition parens' kind' name' expression' =>
      simp only [List.cons_append, List.append_assoc, List.cons.injEq] at same
      obtain ⟨rfl, rfl, rfl, same⟩ := same
      obtain ⟨rfl, rfl, rfl⟩ := expression.unique_before expression' same
      exact ⟨rfl, rfl⟩
    | _ => grind
  | printNum parens kind expression =>
    cases derives' with
    | bare expression' => cases expression' <;> grind
    | printNum parens' kind' expression' =>
      simp only [List.cons_append, List.append_assoc, List.cons.injEq] at same
      obtain ⟨rfl, rfl, same⟩ := same
      obtain ⟨rfl, rfl, rfl⟩ := expression.unique_before expression' same
      exact ⟨rfl, rfl⟩
    | _ => grind
  | printBool parens kind expression =>
    cases derives' with
    | bare expression' => cases expression' <;> grind
    | printBool parens' kind' expression' =>
      simp only [List.cons_append, List.append_assoc, List.cons.injEq] at same
      obtain ⟨rfl, rfl, same⟩ := same
      obtain ⟨rfl, rfl, rfl⟩ := expression.unique_before expression' same
      exact ⟨rfl, rfl⟩
    | _ => grind

theorem Many.unique_statements {tokens others : List Token} {nodes nodes' : List Node}
    (many : Many Statement tokens nodes) (other : Many Statement others nodes')
    (same : tokens = others) : nodes = nodes' := by
  induction many generalizing others nodes' with
  | nil =>
    cases other with
    | nil => rfl
    | cons item _ => exact absurd (List.append_eq_nil_iff.mp same.symm).1 item.starts
  | cons item _ ih =>
    cases other with
    | nil => exact absurd (List.append_eq_nil_iff.mp same).1 item.starts
    | cons item' later =>
      obtain ⟨rfl, rfl⟩ := item.unique item' same
      rw [ih later (List.append_cancel_left same)]

/-- No list of tokens derives two trees. -/
theorem Program.unique {tokens : List Token} {tree other : Node} (program : Program tokens tree)
    (program' : Program tokens other) : tree = other := by
  obtain ⟨statements, many, tree?⟩ := program
  obtain ⟨statements', many', tree'?⟩ := program'
  rw [many.unique_statements many' rfl, tree'?] at tree?
  exact (Option.some.inj tree?).symm

end TypedLisp.Grammar
