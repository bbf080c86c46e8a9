import TypedLisp.Proofs.Descent.Parser
import TypedLisp.Proofs.Reading.Outcome

/-! Following a reader.

An action of a parser follows a reader if it comes to an end and the reader, going on
from the same text, meets the same failure and leaves the same text, or is brought to
what the value of the action says. On every way out the lookahead is empty and the
depth as before. Following composes along the steps of an action, so each production
is settled from the ones it is made of.
-/

set_option autoImplicit false

namespace TypedLisp

open Reader (nestingLimit unexpected)

/-- What becomes of the text that a lexer has left. -/
abbrev Sequel := Lexer → Except SourceError Node × Lexer

namespace Reader

def sequel (attempt : Except SourceError Reader) : Sequel := fun lexer =>
  match attempt with
  | .error error => (.error error, lexer)
  | .ok reader => ((reader.run lexer).result, (reader.run lexer).after)

variable {lexer after : Lexer} (reader : Reader)

theorem sequel_of_ended (pulled : lexer.pull = .ended after) :
    sequel (.ok reader) lexer = (reader.finish after.line, after) := by
  simp only [sequel, reader.run_of_ended pulled]

theorem sequel_of_failed {error : LexicalError} (pulled : lexer.pull = .failed error after) :
    sequel (.ok reader) lexer = (.error (error.map .lexical), after) := by
  simp only [sequel, reader.run_of_failed pulled]

theorem sequel_of_token {token : Token} (pulled : lexer.pull = .token token after) :
    sequel (.ok reader) lexer = sequel (reader.step token) after := by
  cases stepped : reader.step token with
  | error error => simp only [sequel, run_of_refused pulled stepped]
  | ok next => simp only [sequel, run_of_taken pulled stepped]

end Reader

open Reader (sequel)

namespace Lexer

inductive Shows (lexer : Lexer) : Option Token → Prop
  | token {token : Token} {after : Lexer} : lexer.pull = .token token after → Shows lexer (some token)
  | ended : lexer.pull = .ended lexer → Shows lexer none

theorem pull_of_ended {lexer after : Lexer} (pulled : lexer.pull = .ended after) :
    after.pull = .ended after := by
  obtain ⟨rest, line⟩ := after
  obtain rfl : rest = [] := rest_of_ended pulled
  exact pull_finished line

theorem Shows.eq_of_token {lexer after : Lexer} {token : Token} {next : Option Token}
    (shown : lexer.Shows next) (pulled : lexer.pull = .token token after) : next = some token := by
  cases shown with
  | token pulled' =>
    cases pulled'.symm.trans pulled
    rfl
  | ended ended => cases ended.symm.trans pulled

theorem Shows.not_ended {lexer after : Lexer} {token : Token} (shown : lexer.Shows (some token)) :
    lexer.pull ≠ .ended after := by
  intro ended
  cases shown with
  | token pulled => cases pulled.symm.trans ended

end Lexer

namespace Parser

/-- A parser between two tokens, with some forms open. -/
structure Settled (parser : Parser) (depth : Nat) : Prop where
  lookahead : parser.lookahead = none
  depth : parser.depth = depth
  deepest : parser.deepest ≤ nestingLimit

/-- What an action has come to, against what was to become of the text before it. -/
def Tracks {α : Type} (depth least : Nat) (lexer : Lexer) (before : Sequel) (after : α → Sequel) :
    Option (Except SourceError α × Parser) → Prop
  | none => False
  | some (.error error, parser) => parser.Settled depth ∧ before lexer = (.error error, parser.lexer)
  | some (.ok value, parser) =>
      parser.Settled depth ∧ parser.lexer.rest.length + least ≤ lexer.rest.length ∧
        before lexer = after value parser.lexer

/-- From any settled parser with such a text ahead the action comes to an end. If it succeeds it takes
at least some characters, and what follows its value is what was to become of the text. -/
def Follows {α : Type} (ahead : Lexer → Prop) (depth least : Nat) (before : Sequel)
    (action : Parse α) (after : α → Sequel) : Prop :=
  ∀ parser : Parser, parser.Settled depth → ahead parser.lexer →
    Tracks depth least parser.lexer before after (action parser)

abbrev Anything : Lexer → Prop := fun _ => True

section
variable {α β : Type} {ahead : Lexer → Prop} {depth least more : Nat} {before : Sequel}
  {middle : α → Sequel} {after : β → Sequel}

theorem Tracks.trans {start lexer : Lexer} {before middle : Sequel}
    {result : Option (Except SourceError β × Parser)}
    (tracks : Tracks depth more lexer middle after result)
    (shorter : lexer.rest.length + least ≤ start.rest.length)
    (same : before start = middle lexer) :
    Tracks depth (least + more) start before after result := by
  obtain _ | ⟨error | value, parser⟩ := result
  · exact tracks
  · exact ⟨tracks.1, same.trans tracks.2⟩
  · obtain ⟨settled, further, same'⟩ := tracks
    exact ⟨settled, by omega, same.trans same'⟩

theorem Tracks.mono {lexer : Lexer} {result : Option (Except SourceError β × Parser)}
    (tracks : Tracks depth more lexer before after result) (le : least ≤ more) :
    Tracks depth least lexer before after result := by
  obtain _ | ⟨error | value, parser⟩ := result
  · exact tracks
  · exact tracks
  · obtain ⟨settled, shorter, same⟩ := tracks
    exact ⟨settled, Nat.le_trans (Nat.add_le_add_left le _) shorter, same⟩

theorem Follows.mono {action : Parse β} {ahead' : Lexer → Prop}
    (follows : Follows ahead depth more before action after)
    (fewer : ∀ lexer, ahead' lexer → ahead lexer) (le : least ≤ more) :
    Follows ahead' depth least before action after :=
  fun parser settled found => (follows parser settled (fewer _ found)).mono le

theorem Follows.congr {action : Parse β} {after' : β → Sequel}
    (follows : Follows ahead depth least before action after)
    (same : ∀ value, after value = after' value) : Follows ahead depth least before action after' :=
  funext same ▸ follows

theorem Follows.weaken {action : Parse β}
    (follows : Follows ahead depth least before action after) :
    Follows ahead depth 0 before action after :=
  follows.mono (fun _ holds => holds) (Nat.zero_le _)

/-! ## Values and failures -/

theorem follows_pure {value : β} (same : before = after value) :
    Follows ahead depth 0 before (pure value) after := by
  intro parser settled _
  exact ⟨settled, Nat.le_refl _, congrFun same _⟩

theorem follows_throw (error : SourceError) :
    Follows ahead depth least (sequel (.error error)) (throw error) after := by
  intro parser settled _
  exact ⟨settled, rfl⟩

theorem follows_typed {line : Nat} {result : Except TypeFault α}
    {attempt : Except SourceError Reader} (next : α → Except SourceError Reader)
    (same : attempt = match result with
      | .error fault => .error ⟨.illTyped fault, line⟩
      | .ok value => next value) :
    Follows ahead depth 0 (sequel attempt) (typed line result) fun value => sequel (next value) := by
  subst same
  cases result with
  | error fault => exact follows_throw _
  | ok value => exact follows_pure rfl

theorem bind_apply (action : Parse α) (next : α → Parse β) (parser : Parser) :
    (action >>= next) parser =
      match action parser with
      | none => none
      | some (.error error, after) => some (.error error, after)
      | some (.ok value, after) => next value after := by
  show (action parser).bind _ = _
  obtain _ | ⟨error | value, after⟩ := action parser <;> rfl

theorem Follows.bind {action : Parse α} {next : α → Parse β}
    (first : Follows ahead depth least before action middle)
    (second : ∀ value, Follows Anything depth 0 (middle value) (next value) after) :
    Follows ahead depth least before (action >>= next) after := by
  intro parser settled found
  have first := first parser settled found
  rw [bind_apply]
  generalize action parser = result at first ⊢
  obtain _ | ⟨error | value, parser'⟩ := result
  · exact first
  · exact first
  · obtain ⟨settled, shorter, same⟩ := first
    exact (second value parser' settled trivial).trans shorter same

end

/-! ## Looking at a token -/

def place (parser : Parser) (lexer : Lexer) (lookahead : Option Token) : Parser :=
  { parser with lexer, lookahead }

section
variable {parser : Parser} {lexer : Lexer} {token : Token}

theorem Settled.place {depth : Nat} (settled : parser.Settled depth) (lexer : Lexer) :
    (parser.place lexer none).Settled depth :=
  ⟨rfl, settled.depth, settled.deepest⟩

theorem peek_of_token (empty : parser.lookahead = none)
    (pulled : parser.lexer.pull = .token token lexer) :
    peek parser = some (.ok (some token), parser.place lexer (some token)) := by
  simp only [peek, empty, pulled]
  rfl

theorem peek_of_ended (empty : parser.lookahead = none)
    (pulled : parser.lexer.pull = .ended lexer) :
    peek parser = some (.ok none, parser.place lexer none) := by
  obtain ⟨start, lookahead, depth, deepest, le⟩ := parser
  cases empty
  simp only [peek, pulled]
  rfl

theorem peek_of_failed {error : LexicalError} (empty : parser.lookahead = none)
    (pulled : parser.lexer.pull = .failed error lexer) :
    peek parser = some (.error (error.map .lexical), parser.place lexer none) := by
  obtain ⟨start, lookahead, depth, deepest, le⟩ := parser
  cases empty
  simp only [peek, pulled]
  rfl

end

/-- An action that starts with the next token does not mind if that has been looked at. -/
def Fetches {α : Type} (depth : Nat) (action : Parse α) : Prop :=
  ∀ (parser : Parser) (token : Token) (lexer : Lexer), parser.Settled depth →
    parser.lexer.pull = .token token lexer →
      action (parser.place lexer (some token)) = action parser

section
variable {depth : Nat}

theorem fetches_peek : Fetches depth peek := by
  intro parser token lexer settled pulled
  rw [peek_of_token settled.lookahead pulled]
  rfl

theorem Fetches.bind {α β : Type} {action : Parse α} (fetches : Fetches depth action)
    (next : α → Parse β) : Fetches depth (action >>= next) := by
  intro parser token lexer settled pulled
  rw [bind_apply, bind_apply, fetches parser token lexer settled pulled]

theorem fetches_advance : Fetches depth advance :=
  fetches_peek.bind _

theorem fetches_expect (kind : TokenKind) : Fetches depth (expect kind) :=
  fetches_advance.bind _

end

section
variable {parser peeked : Parser} {next : Option Token} {depth : Nat}

theorem peek_ne_none (parser : Parser) : peek parser ≠ none := by
  unfold peek
  split
  · exact Option.some_ne_none _
  · split <;> exact Option.some_ne_none _

theorem tracks_of_peek {α : Type} {least : Nat} {after : α → Sequel} {error : SourceError}
    (settled : parser.Settled depth) (failed : peek parser = some (.error error, peeked))
    (reader : Reader) :
    Tracks depth least parser.lexer (sequel (.ok reader)) after (some (.error error, peeked)) := by
  cases pulled : parser.lexer.pull with
  | failed lexical lexer =>
    cases (peek_of_failed settled.lookahead pulled).symm.trans failed
    exact ⟨settled.place lexer, reader.sequel_of_failed pulled⟩
  | ended lexer => cases (peek_of_ended settled.lookahead pulled).symm.trans failed
  | token token lexer => cases (peek_of_token settled.lookahead pulled).symm.trans failed

-- At the end of a text the parser has skipped the blanks there, and a reader gives the same from
-- both places; before a token the parser is one that a fetching action takes for the one before.
theorem Follows.of_peek {α : Type} {ahead : Lexer → Prop} {least : Nat} {after : α → Sequel}
    {reader : Reader} {action : Parse α}
    (follows : Follows ahead depth least (sequel (.ok reader)) action after)
    (settled : parser.Settled depth) (looked : peek parser = some (.ok next, peeked))
    (fetches : ∀ token, next = some token → Fetches depth action)
    (holds : ∀ lexer : Lexer, lexer.Shows next → ahead lexer) :
    Tracks depth least parser.lexer (sequel (.ok reader)) after (action peeked) := by
  cases pulled : parser.lexer.pull with
  | failed error lexer => cases (peek_of_failed settled.lookahead pulled).symm.trans looked
  | ended lexer =>
    cases (peek_of_ended settled.lookahead pulled).symm.trans looked
    have again := Lexer.pull_of_ended pulled
    have tracks := follows (parser.place lexer none) (settled.place lexer) (holds lexer (.ended again))
    have nothing : (parser.place lexer none).lexer.rest = [] := Lexer.rest_of_ended pulled
    rw [← Nat.zero_add least]
    refine tracks.trans (by simp [nothing]) ?_
    exact (reader.sequel_of_ended pulled).trans (reader.sequel_of_ended again).symm
  | token token lexer =>
    cases (peek_of_token settled.lookahead pulled).symm.trans looked
    rw [fetches token rfl parser token lexer settled pulled]
    exact follows parser settled (holds _ (.token pulled))

end

section
variable {α β : Type} {ahead : Lexer → Prop} {depth least : Nat} {after : β → Sequel}
  {reader : Reader}

theorem follows_peek {next : Option Token → Parse β}
    (fetches : ∀ token, Fetches depth (next (some token)))
    (token : ∀ token, Follows (·.Shows (some token)) depth least (sequel (.ok reader))
      (next (some token)) after)
    (ended : (∃ lexer after, ahead lexer ∧ lexer.pull = .ended after) →
      Follows (·.Shows none) depth least (sequel (.ok reader)) (next none) after) :
    Follows ahead depth least (sequel (.ok reader)) (peek >>= next) after := by
  intro parser settled holds
  rw [bind_apply]
  rcases looked : peek parser with _ | ⟨error | _ | found, peeked⟩
  · exact peek_ne_none parser looked
  · exact tracks_of_peek settled looked reader
  · refine (ended ?_).of_peek settled looked nofun fun _ shown => shown
    cases pulled : parser.lexer.pull with
    | failed error lexer => cases (peek_of_failed settled.lookahead pulled).symm.trans looked
    | ended lexer => exact ⟨_, lexer, holds, pulled⟩
    | token token lexer => cases (peek_of_token settled.lookahead pulled).symm.trans looked
  · exact (token found).of_peek settled looked (fun _ _ => fetches found) fun _ shown => shown

/-! ## Taking a token -/

def Unfinished (ahead : Lexer → Prop) (reader : Reader) : Prop :=
  ∀ lexer after, ahead lexer → lexer.pull = .ended after → reader.program? = none

theorem follows_advance {next : Token → Parse β} (unfinished : Unfinished ahead reader)
    (taken : ∀ token lexer left, ahead lexer → lexer.pull = .token token left →
      Follows Anything depth 0 (sequel (reader.step token)) (next token) after) :
    Follows ahead depth 1 (sequel (.ok reader)) (advance >>= next) after := by
  intro parser settled holds
  rw [bind_apply, advance, bind_apply]
  -- Parser and reader pull the same token, and stop at the same fault or the same end.
  cases pulled : parser.lexer.pull with
  | failed error lexer =>
    rw [peek_of_failed settled.lookahead pulled]
    exact ⟨settled.place lexer, reader.sequel_of_failed pulled⟩
  | ended lexer =>
    rw [peek_of_ended settled.lookahead pulled]
    refine ⟨settled.place lexer, ?_⟩
    rw [reader.sequel_of_ended pulled, Reader.finish, unfinished _ lexer holds pulled]
    rfl
  | token token lexer =>
    rw [peek_of_token settled.lookahead pulled]
    have tracks := taken token _ lexer holds pulled _ (settled.place lexer) trivial
    exact tracks.trans (Lexer.length_lt_of_pull pulled) (reader.sequel_of_token pulled)

theorem follows_expect {kind : TokenKind} {next : Token → Parse β}
    (unfinished : Unfinished ahead reader)
    (refused : ∀ token lexer left, ahead lexer → lexer.pull = .token token left →
      token.kind ≠ kind → reader.step token = unexpected token)
    (taken : ∀ token, token.kind = kind →
      Follows Anything depth 0 (sequel (reader.step token)) (next token) after) :
    Follows ahead depth 1 (sequel (.ok reader)) (expect kind >>= next) after := by
  rw [show expect kind = advance >>= _ from rfl, bind_assoc]
  refine follows_advance unfinished fun token lexer left holds pulled => ?_
  split
  next expected =>
    rw [pure_bind]
    exact taken token expected
  next other =>
    rw [refused token lexer left holds pulled other]
    exact follows_throw _

/-! ## Forms and lists -/

theorem Settled.enter {parser : Parser} (settled : parser.Settled depth) (room : depth < nestingLimit) :
    parser.enter.Settled (depth + 1) where
  lookahead := settled.lookahead
  depth := congrArg (· + 1) settled.depth
  deepest := by
    change max parser.deepest (parser.depth + 1) ≤ nestingLimit
    rw [settled.depth]
    exact Nat.max_le.mpr ⟨settled.deepest, room⟩

theorem Settled.leave {parser : Parser} (settled : parser.Settled (depth + 1)) :
    parser.leave.Settled depth :=
  ⟨settled.lookahead, congrArg (· - 1) settled.depth, settled.deepest⟩

theorem nested_of_room {parser : Parser} (room : parser.depth < nestingLimit) (line : Nat)
    (action : Parse β) :
    nested line action parser =
      (action parser.enter).map fun (result, after) => (result, after.leave) :=
  if_neg (Nat.not_le.mpr room)

theorem follows_nested {before : Sequel} {line : Nat} {action : Parse β} (room : depth < nestingLimit)
    (follows : Follows ahead (depth + 1) least before action after) :
    Follows ahead depth least before (nested line action) after := by
  intro parser settled holds
  -- The form is closed for the counter on both ways out, so the depth is the one before.
  have tracks := follows parser.enter (settled.enter room) holds
  rw [nested_of_room (settled.depth ▸ room)]
  generalize action parser.enter = result at tracks ⊢
  obtain _ | ⟨error | value, last⟩ := result
  · exact tracks
  · exact ⟨tracks.1.leave, tracks.2⟩
  · exact ⟨tracks.1.leave, tracks.2⟩

-- Without room the token looked at would be left behind.
theorem Fetches.nested {line : Nat} {action : Parse β} (fetches : Fetches (depth + 1) action)
    (room : depth < nestingLimit) : Fetches depth (nested line action) := by
  intro parser token lexer settled pulled
  have same := fetches parser.enter token lexer (settled.enter room) pulled
  have room : parser.depth < nestingLimit := settled.depth ▸ room
  have room' : (parser.place lexer (some token)).depth < nestingLimit := room
  rw [nested_of_room room, nested_of_room room', ← same]
  rfl

/-- Items that a reader takes one by one, and what it takes when no more are asked for. -/
theorem follows_collect {more : Option Token → Bool} {item : Parse α} {next : List α → Parse β}
    (reader : List α → Reader) (fetches : Fetches depth item)
    (fetchesNext : ∀ items token, more (some token) = false → Fetches depth (next items))
    (step : ∀ items, Follows (fun lexer => ∃ next, lexer.Shows next ∧ more next = true) depth 1
      (sequel (.ok (reader items))) item fun value => sequel (.ok (reader (items ++ [value]))))
    (exit : ∀ items, Follows (fun lexer => ∃ next, lexer.Shows next ∧ more next = false) depth least
      (sequel (.ok (reader items))) (next items) after) (items : List α) :
    Follows Anything depth least (sequel (.ok (reader items))) (collect more item items >>= next)
      after := by
  rintro parser settled -
  rw [bind_apply]
  have taking (items : List α) {parser peeked : Parser} {token : Option Token}
      (settled : parser.Settled depth) (looked : peek parser = some (.ok token, peeked))
      (wanted : more token = true) :
      Tracks depth 1 parser.lexer (sequel (.ok (reader items)))
        (fun value => sequel (.ok (reader (items ++ [value])))) (item peeked) :=
    (step items).of_peek settled looked (fun _ _ => fetches) fun _ shown => ⟨token, shown, wanted⟩
  -- Induction on the loop, from whatever the reader has taken so far. An item that follows a reader
  -- comes to an end and takes some of the text, so the loop does not go on for ever.
  fun_induction collect more item items parser with
  | case1 items parser nothing => exact peek_ne_none parser nothing
  | case2 items parser error last failed => exact tracks_of_peek settled failed (reader items)
  | case3 items parser token peeked looked wanted nothing =>
    have tracks := taking items settled looked wanted
    rw [nothing] at tracks
    exact tracks
  | case4 items parser token peeked looked wanted error last failed =>
    have tracks := taking items settled looked wanted
    rw [failed] at tracks
    exact tracks
  | case5 items parser token peeked looked wanted value middle taken shorter ih =>
    have tracks := taking items settled looked wanted
    rw [taken] at tracks
    rw [← Nat.zero_add least]
    exact (ih tracks.1).trans (Nat.le_of_lt shorter) tracks.2.2
  | case6 items parser token peeked looked wanted value middle taken noShorter =>
    have tracks := taking items settled looked wanted
    rw [taken] at tracks
    exact absurd tracks.2.1 noShorter
  | case7 items parser token peeked looked unwanted =>
    have unwanted : more token = false := Bool.not_eq_true _ ▸ unwanted
    refine (exit items).of_peek settled looked ?_ fun _ shown => ⟨token, shown, unwanted⟩
    rintro token rfl
    exact fetchesNext items token unwanted

end

end Parser

end TypedLisp
