import Mathlib.Order.Basic
import TypedLisp.Proofs.Reading.Outcome
import TypedLisp.Proofs.Typing.Nesting

/-! How deep the parts of a reader's state nest.

A form within others leaves room for as many levels as the limit has left below it.
Every part that has been read fits the room of its form, so whatever is completed
fits the room it is put in.
-/

set_option autoImplicit false

namespace TypedLisp

namespace Reader

def roomWithin (outer : Nat) : Nat :=
  nestingLimit - (outer + 1)

/-- The parts of a form fit into some room; a callee shares the place of its call. -/
def Hole.Within (room : Nat) : Hole → Prop
  | .operand _ operands => ∀ operand ∈ operands, operand.nesting ≤ room
  | .condition => True
  | .thenBranch test => test.nesting ≤ room
  | .elseBranch test consequent => test.nesting ≤ room ∧ consequent.nesting ≤ room
  | .body _ parameters => parameters.nesting ≤ room
  | .argument callee arguments =>
      callee.nestingFrom true ≤ room ∧
        ∀ argument ∈ arguments, ∀ called, argument.nestingFrom called ≤ room

def Whole.Within (room : Nat) : Whole → Prop
  | .operation _ operands => ∀ operand ∈ operands, operand.nesting ≤ room
  | .conditional test consequent alternative =>
      test.nesting ≤ room ∧ consequent.nesting ≤ room ∧ alternative.nesting ≤ room
  | .function _ parameters body => parameters.nesting ≤ room ∧ body.nesting ≤ room
  | .call callee arguments =>
      callee.nestingFrom true ≤ room ∧
        ∀ argument ∈ arguments, ∀ called, argument.nestingFrom called ≤ room

def Filled.Within (room : Nat) : Filled → Prop
  | .hole waiting => waiting.Within room
  | .whole complete => complete.Within room

def Closed.Within (room : Nat) : Closed → Prop
  | .node closed => closed.nesting ≤ room + 1
  | .callee _ function => function.nestingFrom true ≤ room

/-- Forms around each other, the innermost first, each fit what those around it leave. -/
def FormsWithin : List Form → Prop
  | [] => True
  | form :: outer =>
      outer.length < nestingLimit ∧ form.hole.Within (roomWithin outer.length) ∧ FormsWithin outer

def StatementHole.Within : StatementHole → Prop
  | .bare => True
  | .definition _ definedName => definedName.nesting = 0
  | .print _ kind _ => kind.isPlain

structure Context.Within (context : Context) : Prop where
  statement : context.statement.Within
  forms : FormsWithin context.forms

structure Context.HasRoom (context : Context) : Prop extends context.Within where
  room : context.forms.length < nestingLimit

def State.Within : State → Prop
  | .idle | .statementHead _ | .definedName _ => True
  | .statementEnd body => body.nesting ≤ nestingLimit
  | .inside context => context.Within
  | .closing _ whole context => whole.Within (roomWithin context.forms.length) ∧ context.HasRoom
  | .head _ context | .calleeHead _ _ context | .parametersStart _ _ context => context.HasRoom
  | .parameters _ _ _ read context =>
      (∀ parameter ∈ read, parameter.nesting = 0) ∧ context.HasRoom

structure Within (reader : Reader) : Prop where
  statements : ∀ statement ∈ reader.statements, statement.nesting ≤ nestingLimit
  state : reader.state.Within

/-! ## Forms -/

section
variable {room : Nat}

theorem nestingFrom_gather_le {kind : NodeKind} (plain : kind.isPlain) (emptyLine : Nat)
    {items : List Node} (within : ∀ item ∈ items, ∀ called, item.nestingFrom called ≤ room)
    (called : Bool) : (Node.gather kind emptyLine items).nestingFrom called ≤ room := by
  match items with
  | [] =>
    rw [Node.nestingFrom_of_isPlain plain]
    exact Nat.zero_le room
  | [item] => exact within item (List.mem_singleton_self item) called
  | first :: second :: rest =>
    rw [Node.nestingFrom_of_isPlain plain]
    exact Node.nestingAll_le_iff.mpr fun item member => within item member false

theorem Hole.Within.fill {hole : Hole} {expression : Node} {filled : Filled}
    (within : hole.Within room) (fits : expression.nesting ≤ room)
    (taken : hole.fill expression = .ok filled) : filled.Within room := by
  cases hole with
  | operand operator operands =>
    have longer : ∀ operand ∈ expression :: operands, operand.nesting ≤ room :=
      List.forall_mem_cons.mpr ⟨fits, within⟩
    dsimp only [Hole.fill] at taken
    split at taken
    · cases taken
      exact longer
    · cases taken
      exact fun operand member => longer operand (List.mem_reverse.mp member)
  | condition =>
    obtain ⟨-, rfl⟩ := Hole.condition_fill_eq_ok_iff.mp taken
    exact (Node.nesting_test expression).trans_le fits
  | thenBranch test =>
    cases taken
    exact ⟨within, (Node.nestingFrom_wrap rfl false expression).trans_le fits⟩
  | elseBranch test consequent =>
    cases taken
    exact ⟨within.1, within.2, (Node.nestingFrom_wrap rfl false expression).trans_le fits⟩
  | body role parameters =>
    cases taken
    exact ⟨within, (Node.nestingFrom_wrap rfl false expression).trans_le fits⟩
  | argument callee arguments =>
    cases taken
    refine ⟨within.1, List.forall_mem_cons.mpr ⟨fun called => ?_, within.2⟩⟩
    exact (Node.nestingFrom_wrap rfl called expression).trans_le fits

theorem Hole.Within.whole {hole : Hole} {whole : Whole} (within : hole.Within room)
    (closable : hole.whole? = some whole) : whole.Within room := by
  cases hole with
  | operand operator operands =>
    dsimp only [Hole.whole?] at closable
    split at closable
    · cases closable
      exact fun operand member => within operand (List.mem_reverse.mp member)
    · cases closable
  | argument callee arguments =>
    cases closable
    exact ⟨within.1, fun argument member => within.2 argument (List.mem_reverse.mp member)⟩
  | condition => cases closable
  | thenBranch => cases closable
  | elseBranch => cases closable
  | body => cases closable

-- Grouping puts operands below a list, which is no form, so they are nested as deep as before.
theorem groupOperands_within {operator : Operator} {operands grouped : List Node}
    (within : ∀ operand ∈ operands, operand.nesting ≤ room)
    (taken : groupOperands operator operands = .ok grouped) :
    ∀ operand ∈ grouped, operand.nesting ≤ room := by
  unfold groupOperands at taken
  split at taken
  next first second rest _ =>
    split at taken
    · cases taken
    next tail made =>
      cases taken
      rw [List.forall_mem_cons] at within
      refine List.forall_mem_cons.mpr ⟨within.1, List.forall_mem_singleton.mpr ?_⟩
      cases rest with
      | nil =>
        cases made
        exact within.2 second (List.mem_singleton_self second)
      | cons third rest =>
        obtain ⟨shared, -, rfl⟩ := Node.expressionList_eq_ok_iff.mp made
        exact Node.nestingAll_le_iff.mpr within.2
  · cases taken
    exact within

theorem applyOperator_within {operator : Operator} {operands : List Node} {line : Nat} {node : Node}
    (within : ∀ operand ∈ operands, operand.nesting ≤ room)
    (taken : applyOperator operator operands line = .ok node) : node.nesting ≤ room + 1 := by
  unfold applyOperator at taken
  split at taken
  · cases taken
  next grouped made =>
    split at taken
    · cases taken
    next built =>
      cases taken
      obtain ⟨-, rfl⟩ := Node.operation_eq_ok_iff.mp built
      exact Nat.succ_le_succ (Node.nestingAll_le_iff.mpr (groupOperands_within within made))

theorem Whole.Within.close {whole : Whole} {line closeLine : Nat} {closed : Closed}
    (within : whole.Within room) (taken : whole.close line closeLine = .ok closed) :
    closed.Within room := by
  cases whole with
  | operation operator operands =>
    obtain ⟨node, applied, rfl⟩ := Whole.operation_close_eq_ok_iff.mp taken
    exact applyOperator_within within applied
  | conditional test consequent alternative =>
    cases taken
    obtain ⟨tests, consequents, alternatives⟩ := within
    exact Nat.succ_le_succ (Node.forall_nesting_le_iff.mpr (by simp [tests, consequents, alternatives]))
  | function role parameters body =>
    obtain ⟨list, bodies⟩ := within
    have parts : Node.nestingAll false [parameters, body] ≤ room :=
      Node.forall_nesting_le_iff.mpr (by simp [list, bodies])
    cases role with
    | expression =>
      cases taken
      exact Nat.succ_le_succ parts
    | callee callLine =>
      -- A called function is no deeper than its call, and the call is still open.
      cases taken
      exact parts
  | call callee arguments =>
    cases taken
    have list : (Node.gather .argumentList closeLine arguments).nestingFrom true ≤ room :=
      nestingFrom_gather_le rfl closeLine within.2 true
    refine Nat.succ_le_succ (Node.nestingAll_le_iff.mpr ?_)
    simpa using ⟨within.1, list⟩

end

/-! ## Steps -/

section
variable {reader next : Reader} {context : Context} {token : Token}

theorem Within.become (within : reader.Within) {state : State} (fits : state.Within) :
    (reader.become state).Within :=
  ⟨within.statements, fits⟩

theorem Within.complete (within : reader.Within) {body : Node} (fits : body.nesting ≤ nestingLimit) :
    (reader.complete body).Within := by
  refine ⟨List.forall_mem_cons.mpr ⟨?_, within.statements⟩, trivial⟩
  exact (Node.nestingFrom_wrap rfl false body).trans_le fits

theorem Context.HasRoom.enter (around : context.HasRoom) {line : Nat} {hole : Hole}
    (fits : hole.Within (roomWithin context.forms.length)) : (context.enter line hole).Within :=
  ⟨around.statement, around.room, fits, around.forms⟩

theorem Within.fill {expression : Node} (within : reader.Within) (around : context.Within)
    (fits : expression.nesting ≤ nestingLimit - context.forms.length)
    (taken : reader.fill context expression = .ok next) : next.Within := by
  obtain ⟨statement, forms⟩ := context
  obtain ⟨plain, around⟩ := around
  cases forms with
  | nil =>
    cases statement with
    | bare =>
      cases taken
      exact within.complete fits
    | definition line definedName =>
      cases taken
      have named : definedName.nesting = 0 := plain
      have parts : Node.nestingAll false [definedName, expression] ≤ nestingLimit :=
        Node.forall_nesting_le_iff.mpr (by simpa [named] using fits)
      exact within.become ((Node.nestingFrom_of_isPlain rfl false).trans_le parts)
    | print line kind keyword =>
      cases taken
      exact within.become ((Grammar.nesting_print plain keyword expression line).trans_le fits)
  | cons form outer =>
    obtain ⟨room, hole, around⟩ := around
    simp only [Reader.fill] at taken
    split at taken
    next => cases taken
    next filled =>
      cases taken
      exact within.become ⟨plain, room, hole.fill fits filled, around⟩
    next filled =>
      cases taken
      exact within.become ⟨hole.fill fits filled, ⟨plain, around⟩, room⟩

-- A form that closes takes back the level it has held, so its node has room for one more than its parts.
theorem Within.close {line closeLine : Nat} {whole : Whole} (within : reader.Within)
    (around : context.HasRoom) (parts : whole.Within (roomWithin context.forms.length))
    (taken : reader.close line whole context closeLine = .ok next) : next.Within := by
  have room := around.room
  unfold Reader.close at taken
  split at taken
  next => cases taken
  next node closed =>
    have fits : node.nesting ≤ roomWithin context.forms.length + 1 := parts.close closed
    refine within.fill around.toWithin ?_ taken
    rw [Node.nesting_expression]
    unfold roomWithin at fits
    omega
  next callLine function closed =>
    cases taken
    exact within.become (around.enter ⟨parts.close closed, List.forall_mem_nil _⟩)

theorem Within.begin (within : reader.Within) (around : context.Within)
    (taken : reader.begin context token = .ok next) : next.Within := by
  unfold Reader.begin at taken
  split at taken
  case h_4 =>
    split at taken
    next room =>
      cases taken
      exact within.become ⟨around, room⟩
    next => cases taken
  case h_5 => cases taken
  all_goals exact within.fill around (Nat.zero_le _) taken

theorem Within.openForm {line : Nat} (within : reader.Within) (around : context.HasRoom)
    (taken : reader.openForm line context token = .ok next) : next.Within := by
  unfold Reader.openForm at taken
  split at taken
  next =>
    cases taken
    exact within.become (around.enter (List.forall_mem_nil _))
  next =>
    cases taken
    exact within.become (around.enter trivial)
  next =>
    cases taken
    exact within.become around
  next =>
    cases taken
    exact within.become around
  next =>
    cases taken
    exact within.become (around.enter ⟨Nat.zero_le _, List.forall_mem_nil _⟩)
  next => cases taken

theorem bare_hasRoom : Context.HasRoom ⟨.bare, []⟩ :=
  ⟨⟨trivial, trivial⟩, by decide⟩

/-- Every token keeps the parts of the state within the limit. -/
theorem Within.step (within : reader.Within) (taken : reader.step token = .ok next) : next.Within := by
  have fits := within.state
  have moved := moves_of_step taken
  generalize reader.state = state at fits moved
  cases moved with
  | opening | define => exact within.become trivial
  | bare noOpening begun => exact within.begin bare_hasRoom.toWithin begun
  | printNum | printBool | definedName => exact within.become ⟨rfl, trivial⟩
  | statementForm opened => exact within.openForm bare_hasRoom opened
  | statementEnd => exact within.complete fits
  | part begun => exact within.begin fits begun
  | @innermost statement form outer whole next kind closable closed =>
    -- The form that closes was counted as open, so around it there is room for one more.
    obtain ⟨plain, room, hole, around⟩ := fits
    have outside : Context.HasRoom ⟨statement, outer⟩ := ⟨⟨plain, around⟩, room⟩
    exact within.close outside (hole.whole closable) closed
  | closing kind closed => exact within.close fits.2 fits.1 closed
  | head opened => exact within.openForm fits opened
  | callee => exact within.become fits
  | parametersOpening => exact within.become ⟨List.forall_mem_nil _, fits⟩
  | parameter =>
    obtain ⟨flat, around⟩ := fits
    exact within.become ⟨List.forall_mem_cons.mpr ⟨rfl, flat⟩, around⟩
  | @parametersClosing role line listLine read context kind =>
    obtain ⟨flat, around⟩ := fits
    have none : ∀ parameter ∈ read.reverse, parameter.nesting ≤ 0 := fun parameter member =>
      Nat.le_of_eq (flat parameter (List.mem_reverse.mp member))
    have list : (Node.gather .parameterList listLine read.reverse).nesting ≤ 0 :=
      (Node.nestingFrom_gather_le_iff rfl false listLine fun _ _ => rfl).mpr none
    exact within.become (around.enter (Nat.le_trans list (Nat.zero_le _)))

theorem Within.feed {tokens : List Token} (within : reader.Within)
    (taken : reader.feed tokens = .ok next) : next.Within :=
  feed_induction (fun _ reader => reader.Within) within (fun within taken => within.step taken) taken

theorem start_within : start.Within :=
  ⟨List.forall_mem_nil _, trivial⟩

end

end Reader

end TypedLisp
