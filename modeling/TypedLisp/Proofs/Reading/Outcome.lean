import TypedLisp.Proofs.Grammar
import TypedLisp.Proofs.Typing.Rules
import TypedLisp.Reader.Run

/-! What a reader makes of tokens that derive a tree.

A reader that awaits an expression, given the tokens of one, reports the first
fault of its tree or takes the tree as it would take a literal. The statement
holds in every context, so that it composes along a derivation.
-/

set_option autoImplicit false

namespace TypedLisp

open Grammar

namespace Reader

def firstOr {α : Type} (faults : List SourceError) (result : Except SourceError α) :
    Except SourceError α :=
  match faults with
  | [] => result
  | fault :: _ => .error fault

section
variable {α β : Type} {faults : List SourceError} {result : Except SourceError α}

@[simp] theorem firstOr_nil : firstOr [] result = result := rfl

@[simp] theorem firstOr_append (more : List SourceError) :
    firstOr (faults ++ more) result = firstOr faults (firstOr more result) := by
  cases faults <;> rfl

@[simp] theorem firstOr_bind (next : α → Except SourceError β) :
    (firstOr faults result).bind next = firstOr faults (result.bind next) := by
  cases faults <;> rfl

theorem firstOr_eq_ok_iff {value : α} :
    firstOr faults result = .ok value ↔ faults = [] ∧ result = .ok value := by
  cases faults <;> simp [firstOr]

end

/-! ## Single steps -/

section
variable (reader : Reader) {context : Context} {line : Nat}

@[simp] theorem become_become (first second : State) :
    (reader.become first).become second = reader.become second := rfl

@[simp] theorem state_become (state : State) : (reader.become state).state = state := rfl

@[simp] theorem complete_become (state : State) (body : Node) :
    (reader.become state).complete body = reader.complete body := rfl

@[simp] theorem fill_become (state : State) (context : Context) (expression : Node) :
    (reader.become state).fill context expression = reader.fill context expression := rfl

@[simp] theorem close_become (state : State) (whole : Whole) (closeLine : Nat) :
    (reader.become state).close line whole context closeLine =
      reader.close line whole context closeLine := rfl

@[simp] theorem feed_nil : reader.feed [] = .ok reader := rfl

@[simp] theorem feed_cons (token : Token) (tokens : List Token) :
    reader.feed (token :: tokens) = (reader.step token).bind (·.feed tokens) := rfl

@[simp] theorem ok_bind {α β : Type} (value : α) (next : α → Except SourceError β) :
    (Except.ok value).bind next = next value := rfl

@[simp] theorem bind_ok {α : Type} (result : Except SourceError α) :
    (result.bind fun value => .ok value) = result := by
  cases result <;> rfl

theorem feed_cons_eq_ok_iff {reader last : Reader} {token : Token} {tokens : List Token} :
    reader.feed (token :: tokens) = .ok last ↔
      ∃ next, reader.step token = .ok next ∧ next.feed tokens = .ok last := by
  rw [feed_cons]
  cases reader.step token <;> simp [Except.bind]

theorem feed_append_eq_ok_iff {reader last : Reader} {before later : List Token} :
    reader.feed (before ++ later) = .ok last ↔
      ∃ next, reader.feed before = .ok next ∧ next.feed later = .ok last := by
  rw [feed_append]
  cases reader.feed before <;> simp [Except.bind]

/-- What holds of the tokens taken so far, and is kept by each token more, holds of all of them. -/
theorem feed_induction {reader last : Reader} {tokens : List Token}
    (motive : List Token → Reader → Prop) (initial : motive [] reader)
    (step : ∀ {before : List Token} {reader next : Reader} {token : Token}, motive before reader →
      reader.step token = .ok next → motive (before ++ [token]) next)
    (taken : reader.feed tokens = .ok last) : motive tokens last := by
  induction tokens generalizing reader motive with
  | nil =>
    cases taken
    exact initial
  | cons token tokens ih =>
    obtain ⟨next, stepped, taken⟩ := feed_cons_eq_ok_iff.mp taken
    exact ih (fun before => motive (token :: before)) (step initial stepped) step taken

@[simp] theorem length_enter (context : Context) (line : Nat) (hole : Hole) :
    (context.enter line hole).forms.length = context.forms.length + 1 := rfl

end

/-! ## Tokens taken -/

-- What every invariant of reading goes through, so that the states and what each of them refuses are told
-- apart here only. Tokens taken for what they open or close alone become a state; those taken as a part of
-- something are left to the functions that read it.
/-- What a token, taken, makes of a reader in a state. -/
inductive Moves (reader : Reader) (token : Token) : State → Reader → Prop
  | opening (kind : token.kind = .leftParen) :
      Moves reader token .idle (reader.become (.statementHead token.line))
  | bare {next : Reader} (noOpening : token.kind ≠ .leftParen)
      (begun : reader.begin ⟨.bare, []⟩ token = .ok next) : Moves reader token .idle next
  | define {line : Nat} (kind : token.kind = .define) :
      Moves reader token (.statementHead line) (reader.become (.definedName line))
  | printNum {line : Nat} (kind : token.kind = .printNum) :
      Moves reader token (.statementHead line)
        (reader.become (.inside ⟨.print line .printNum token.lexeme, []⟩))
  | printBool {line : Nat} (kind : token.kind = .printBool) :
      Moves reader token (.statementHead line)
        (reader.become (.inside ⟨.print line .printBool token.lexeme, []⟩))
  | statementForm {line : Nat} {next : Reader}
      (opened : reader.openForm line ⟨.bare, []⟩ token = .ok next) :
      Moves reader token (.statementHead line) next
  | definedName {line : Nat} (kind : token.kind = .identifier) :
      Moves reader token (.definedName line)
        (reader.become (.inside
          ⟨.definition line (.wrap .definedName (.identifier token.lexeme token.line)), []⟩))
  | statementEnd {body : Node} (kind : token.kind = .rightParen) :
      Moves reader token (.statementEnd body) (reader.complete body)
  | part {context : Context} {next : Reader} (begun : reader.begin context token = .ok next) :
      Moves reader token (.inside context) next
  | innermost {statement : StatementHole} {form : Form} {outer : List Form} {whole : Whole} {next : Reader}
      (kind : token.kind = .rightParen) (closable : form.hole.whole? = some whole)
      (closed : reader.close form.line whole ⟨statement, outer⟩ token.line = .ok next) :
      Moves reader token (.inside ⟨statement, form :: outer⟩) next
  | closing {line : Nat} {whole : Whole} {context : Context} {next : Reader}
      (kind : token.kind = .rightParen)
      (closed : reader.close line whole context token.line = .ok next) :
      Moves reader token (.closing line whole context) next
  | head {line : Nat} {context : Context} {next : Reader}
      (opened : reader.openForm line context token = .ok next) : Moves reader token (.head line context) next
  | callee {callLine line : Nat} {context : Context} (kind : token.kind = .function) :
      Moves reader token (.calleeHead callLine line context)
        (reader.become (.parametersStart (.callee callLine) line context))
  | parametersOpening {role : FunctionRole} {line : Nat} {context : Context}
      (kind : token.kind = .leftParen) :
      Moves reader token (.parametersStart role line context)
        (reader.become (.parameters role line token.line [] context))
  | parameter {role : FunctionRole} {line listLine : Nat} {read : List Node} {context : Context}
      (kind : token.kind = .identifier) :
      Moves reader token (.parameters role line listLine read context)
        (reader.become (.parameters role line listLine
          (.wrap .parameter (.identifier token.lexeme token.line) :: read) context))
  | parametersClosing {role : FunctionRole} {line listLine : Nat} {read : List Node} {context : Context}
      (kind : token.kind = .rightParen) :
      Moves reader token (.parameters role line listLine read context)
        (reader.become (.inside
          (context.enter line (.body role (.gather .parameterList listLine read.reverse)))))

theorem moves_of_step {reader next : Reader} {token : Token} (taken : reader.step token = .ok next) :
    Moves reader token reader.state next := by
  unfold step at taken
  cases state : reader.state with
  | idle =>
    simp only [state] at taken
    split at taken
    next kind =>
      cases taken
      exact .opening kind
    next noOpening => exact .bare noOpening taken
  | statementHead line =>
    simp only [state] at taken
    split at taken
    next kind =>
      cases taken
      exact .define kind
    next kind =>
      cases taken
      exact .printNum kind
    next kind =>
      cases taken
      exact .printBool kind
    next => exact .statementForm taken
  | definedName line =>
    simp only [state] at taken
    split at taken
    next kind =>
      cases taken
      exact .definedName kind
    next => cases taken
  | statementEnd body =>
    simp only [state] at taken
    split at taken
    next kind =>
      cases taken
      exact .statementEnd kind
    next => cases taken
  | inside context =>
    obtain ⟨statement, forms⟩ := context
    simp only [state] at taken
    split at taken
    next form outer kind =>
      split at taken
      next whole closable => exact .innermost kind closable taken
      next => cases taken
    next => exact .part taken
  | closing line whole context =>
    simp only [state] at taken
    split at taken
    next kind => exact .closing kind taken
    next => cases taken
  | head line context =>
    simp only [state] at taken
    exact .head taken
  | calleeHead callLine line context =>
    simp only [state] at taken
    split at taken
    next kind =>
      cases taken
      exact .callee kind
    next => cases taken
  | parametersStart role line context =>
    simp only [state] at taken
    split at taken
    next kind =>
      cases taken
      exact .parametersOpening kind
    next => cases taken
  | parameters role line listLine read context =>
    simp only [state] at taken
    split at taken
    next kind =>
      cases taken
      exact .parameter kind
    next kind =>
      cases taken
      exact .parametersClosing kind
    next => cases taken

/-! ## Expressions awaited -/

-- Between statements an expression may come too, but there the token after a parenthesis may also
-- open a statement. Both kinds of reader agree on everything that starts an expression.
/-- A reader to which an expression may come, and what encloses that expression. -/
inductive Awaits : Reader → Context → Prop
  | idle {reader : Reader} : reader.state = .idle → Awaits reader ⟨.bare, []⟩
  | inside {reader : Reader} {context : Context} : reader.state = .inside context →
      Awaits reader context

section
variable {reader : Reader} {context : Context}

theorem Awaits.step_literal {token : Token} (awaits : Awaits reader context)
    (noOpening : token.kind ≠ .leftParen) (noClosing : token.kind ≠ .rightParen) :
    reader.step token = reader.begin context token := by
  cases awaits with
  | idle state => simp only [step, state]
  | inside state =>
    simp only [step, state]
    split
    · contradiction
    · rfl

theorem Awaits.feed_opening {opening head : Token} (awaits : Awaits reader context)
    (opens : opening.kind = .leftParen)
    (form : head.kind ≠ .define ∧ head.kind ≠ .printNum ∧ head.kind ≠ .printBool)
    (rest : List Token) :
    reader.feed (opening :: head :: rest) =
      firstOr (if context.forms.length < nestingLimit then [] else [⟨.nestedTooDeep, opening.line⟩])
        ((reader.openForm opening.line context head).bind (·.feed rest)) := by
  obtain ⟨noDefine, noPrintNum, noPrintBool⟩ := form
  cases awaits with
  | idle state =>
    have room : ([] : List Form).length < nestingLimit := by decide
    rw [if_pos room]
    simp only [feed_cons, step, state, opens, ok_bind, state_become, firstOr_nil]
    rfl
  | inside state =>
    by_cases room : context.forms.length < nestingLimit
    · simp only [feed_cons, step, state, begin, opens, if_pos room, ok_bind, state_become,
        firstOr_nil]
      rfl
    · simp only [feed_cons, step, state, begin, opens, if_neg room]
      rfl

end

end Reader

end TypedLisp
