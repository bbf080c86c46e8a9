import TypedLisp.Proofs.Lexing.Continuation
import TypedLisp.Proofs.Reading.Programs
import TypedLisp.Proofs.Reading.Relocation

/-! Reading two texts with a blank between them.

Between statements a reader holds nothing but the statements read, and a blank ends
every token. So the second text is read as it would be alone, but for its lines and
for the statements that come before its own.
-/

set_option autoImplicit false

namespace TypedLisp

open Grammar

namespace Reader

/-- Between statements a reader is one that has just started, after those statements. -/
theorem eq_relocate_start {reader : Reader} (idle : reader.state = .idle) (change : Nat → Nat) :
    reader = start.relocate change reader.statements := by
  obtain ⟨statements, state⟩ := reader
  cases idle
  rfl

theorem idle_of_program? {reader : Reader} {program : Node} (ended : reader.program? = some program) :
    reader.state = .idle ∧ Node.program? reader.statements.reverse = some program := by
  unfold program? at ended
  split at ended
  next idle => exact ⟨idle, ended⟩
  next => cases ended

theorem program?_relocate (change : Nat → Nat) (earlier : List Node) {reader : Reader}
    (idle : reader.state = .idle) :
    (reader.relocate change earlier).program? =
      Node.program? (earlier.reverse ++ reader.statements.reverse.map (.mapLines change)) := by
  simp [program?, relocate, idle, State.mapLines]

theorem program?_relocate_of_not_idle (change : Nat → Nat) (earlier : List Node) {reader : Reader}
    (busy : reader.state ≠ .idle) : (reader.relocate change earlier).program? = none := by
  unfold program?
  rw [state_relocate]
  cases state : reader.state with
  | idle => exact absurd state busy
  | _ => rfl

theorem program?_mapLines (change : Nat → Nat) (reader : Reader) :
    (reader.relocate change []).program? = reader.program?.map (.mapLines change) := by
  by_cases idle : reader.state = .idle
  · rw [program?_relocate change [] idle, List.reverse_nil, List.nil_append, Node.program?_mapLines]
    simp only [program?, idle]
  · rw [program?_relocate_of_not_idle change [] idle]
    unfold program?
    split
    next state => exact absurd state idle
    next => rfl

theorem statements_of_feed {tokens : List Token} {last : Reader} {program : Node}
    (taken : start.feed tokens = .ok last) (ended : last.program? = some program) :
    program.statements = last.statements.reverse := by
  obtain ⟨earlier, current, -, many, -⟩ := start_holds.feed taken
  have single : ∀ statement ∈ last.statements.reverse, statement.kind ≠ .statementList :=
    many.forall_mem fun derives => by cases derives <;> simp [Node.wrap, Node.untyped]
  exact Node.statements_of_program? single (idle_of_program? ended).2

theorem tokens_of_feed {tokens : List Token} {last : Reader} (taken : start.feed tokens = .ok last)
    (idle : last.state = .idle) (none : last.statements = []) : tokens = [] := by
  obtain ⟨earlier, current, rfl, many, holds⟩ := start_holds.feed taken
  rw [none] at many
  rw [idle] at holds
  cases many
  cases holds
  rfl

theorem outcome_append (reader : Reader) (tokens : List Token) (lexed : Lexed) :
    reader.outcome { lexed with tokens := tokens ++ lexed.tokens } =
      (reader.feed tokens).bind (·.outcome lexed) := by
  simp only [outcome, feed_append]
  cases reader.feed tokens <;> rfl

/-! ## The outcome on other lines -/

section
variable (lines : Nat) (earlier : List Node) {lexed : Lexed}

theorem outcome_relocate :
    (start.relocate (· + lines) earlier).outcome (lexed.shift lines) =
      (mapResult (· + lines) (relocate (· + lines) earlier) (start.feed lexed.tokens)).bind fun last =>
        match lexed.failure with
        | some error => .error ((error.map .lexical).shift lines)
        | none => last.finish (lexed.after.line + lines) := by
  rw [← feed_relocate]
  unfold outcome
  cases failure : lexed.failure with
  | none => simp only [Lexed.shift, failure]; rfl
  | some error => simp only [Lexed.shift, failure]; rfl

-- The error is the same further down, except that an earlier statement makes a program of no text at all.
-- So the later text must have something in it, unless nothing was read before.
theorem outcome_relocate_of_error {error : SourceError}
    (room : earlier = [] ∨ lexed.tokens ≠ [] ∨ lexed.failure ≠ none)
    (failed : start.outcome lexed = .error error) :
    (start.relocate (· + lines) earlier).outcome (lexed.shift lines) = .error (error.shift lines) := by
  rw [outcome_relocate]
  obtain read | ⟨last, read, ⟨lexical, failure, rfl⟩ | ⟨failure, noProgram, rfl⟩⟩ :=
    outcome_eq_error_iff.mp failed
  · rw [read]
    rfl
  · rw [read, failure]
    rfl
  · rw [read, mapResult, ok_bind, failure]
    have noProgram : (last.relocate (· + lines) earlier).program? = none := by
      by_cases idle : last.state = .idle
      case neg => exact program?_relocate_of_not_idle (· + lines) earlier idle
      -- Nothing has been read then, so the reader must have come first.
      have empty : last.statements = [] := by
        simp only [program?, idle] at noProgram
        cases statements : last.statements.reverse with
        | nil => simpa using statements
        | cons first rest => simp [statements, Node.program?] at noProgram
      have alone : earlier = [] := by
        have noTokens := tokens_of_feed read idle empty
        simpa [noTokens, failure] using room
      rw [program?_relocate (· + lines) earlier idle, empty, alone]
      rfl
    simp only [finish, noProgram]
    rfl

theorem outcome_relocate_of_ok {later : Node} (taken : start.outcome lexed = .ok later) :
    Node.program? later.statements = some later ∧
    ∃ whole, (start.relocate (· + lines) earlier).outcome (lexed.shift lines) = .ok whole ∧
      Node.program? (earlier.reverse ++ later.statements.map (.shift lines)) = some whole := by
  obtain ⟨last, read, failure, ended⟩ := outcome_eq_ok_iff.mp taken
  obtain ⟨idle, made⟩ := idle_of_program? ended
  rw [statements_of_feed read ended]
  refine ⟨made, ?_⟩
  have whole := program?_relocate (· + lines) earlier idle
  -- A program has a statement, so there is one among all of them.
  cases joined : earlier.reverse ++ last.statements.reverse.map (.mapLines (· + lines)) with
  | nil =>
    have empty : last.statements = [] := by simpa using (List.append_eq_nil_iff.mp joined).2
    rw [empty] at made
    cases made
  | cons first rest =>
    rw [joined] at whole
    refine ⟨_, ?_, congrArg Node.program? joined⟩
    rw [outcome_relocate, read, mapResult, ok_bind, failure]
    simp only [finish, whole]
    rfl

end

end Reader

/-! ## Texts -/

theorem Lexer.allBlank_of_lexAll {text : List Char} {line : Nat}
    (noTokens : (⟨text, line⟩ : Lexer).lexAll.tokens = [])
    (intact : (⟨text, line⟩ : Lexer).lexAll.failure = none) : AllBlank text := by
  obtain ⟨tokens, line', rest, tiles, blank | ⟨error, fails⟩⟩ := exists_tiles ⟨text, line⟩
  · rw [lexAll_of_tiles tiles] at noTokens
    obtain ⟨rfl, -⟩ := List.append_eq_nil_iff.mp noTokens
    cases tiles
    exact blank
  · rw [lexAll_of_tiles tiles, lexAll_of_fails fails] at intact
    cases intact

def newlines (text : String) : Nat :=
  text.toList.count '\n'

theorem ofSource_append (first gap second : String) :
    Lexer.ofSource (first ++ gap ++ second) =
      ⟨first.toList ++ (gap.toList ++ second.toList), 1⟩ := by
  simp [Lexer.ofSource]

theorem reads_of_not_blank {text : String} (something : ∃ character ∈ text.toList, ¬ isBlank character) :
    (Lexer.ofSource text).lexAll.tokens ≠ [] ∨ (Lexer.ofSource text).lexAll.failure ≠ none := by
  by_cases noTokens : (Lexer.ofSource text).lexAll.tokens = []
  case neg => exact .inl noTokens
  refine .inr fun intact => ?_
  obtain ⟨character, member, noBlank⟩ := something
  exact noBlank (Lexer.allBlank_of_lexAll noTokens intact character member)

section
variable {first gap second : String} (apart : StartsBlank gap.toList)
include apart

theorem lexAll_append_of_failure {error : LexicalError}
    (failed : (Lexer.ofSource first).lexAll.failure = some error) :
    (Lexer.ofSource (first ++ gap ++ second)).lexAll = (Lexer.ofSource first).lexAll := by
  rw [ofSource_append]
  exact Lexer.lexAll_append_of_failure second.toList apart 1 failed

/-- Reading goes on with the second text where the first one left the reader. -/
theorem parse_append_eq_outcome (blank : AllBlank gap.toList)
    (intact : (Lexer.ofSource first).lexAll.failure = none) :
    parse (first ++ gap ++ second) =
      (Reader.start.feed (Lexer.ofSource first).lexAll.tokens).bind
        (·.outcome ((Lexer.ofSource second).lexAll.shift (newlines (first ++ gap)))) := by
  have lexed := Lexer.lexAll_append second.toList apart 1 blank intact
  rw [← ofSource_append] at lexed
  rw [parse_eq_outcome, lexed, Reader.outcome_append, ← String.toList_append]
  rfl

theorem parse_append_of_error {error : SourceError} (blank : AllBlank gap.toList)
    (refused : parse first = .error error) (early : error.fault ≠ .unexpectedEnd) :
    parse (first ++ gap ++ second) = .error error := by
  have alone := refused
  rw [parse_eq_outcome] at alone
  cases failure : (Lexer.ofSource first).lexAll.failure with
  | some lexical => rw [parse_eq_outcome, lexAll_append_of_failure apart failure, alone]
  | none =>
    -- Without a failure the error is that of a refused token, as it is not that of the end.
    rw [parse_append_eq_outcome apart blank failure]
    obtain read | ⟨last, -, ⟨lexical, failed, -⟩ | ⟨-, -, rfl⟩⟩ := Reader.outcome_eq_error_iff.mp alone
    · rw [read]
      rfl
    · cases failure.symm.trans failed
    · exact absurd rfl early

theorem parse_append_of_ok {program : Node} (blank : AllBlank gap.toList)
    (taken : parse first = .ok program) :
    parse (first ++ gap ++ second) =
      (Reader.start.relocate (· + newlines (first ++ gap)) program.statements.reverse).outcome
        ((Lexer.ofSource second).lexAll.shift (newlines (first ++ gap))) := by
  rw [parse_eq_outcome] at taken
  obtain ⟨last, read, intact, ended⟩ := Reader.outcome_eq_ok_iff.mp taken
  have same := Reader.eq_relocate_start (Reader.idle_of_program? ended).1 (· + newlines (first ++ gap))
  rw [parse_append_eq_outcome apart blank intact, read, Reader.ok_bind,
    Reader.statements_of_feed read ended, List.reverse_reverse, ← same]

theorem parse_append_of_ok_blank {program : Node} (blank : AllBlank gap.toList)
    (taken : parse first = .ok program) (empty : AllBlank second.toList) :
    parse (first ++ gap ++ second) = .ok program := by
  have lexed : (Lexer.ofSource second).lexAll = _ := Lexer.lexAll_of_allBlank empty 1
  rw [parse_append_of_ok apart blank taken, lexed]
  rw [parse_eq_outcome] at taken
  obtain ⟨made, -⟩ := Reader.outcome_relocate_of_ok 0 [] taken
  have ended : (Reader.start.relocate (· + newlines (first ++ gap))
      program.statements.reverse).program? = some program := by
    rw [Reader.program?_relocate _ _ rfl, List.reverse_reverse]
    exact (congrArg Node.program? (List.append_nil _)).trans made
  exact Reader.outcome_eq_ok_iff.mpr ⟨_, rfl, rfl, ended⟩

theorem parse_append_of_blank (blank : AllBlank gap.toList) (empty : AllBlank first.toList) :
    parse (first ++ gap ++ second) =
      (Reader.start.relocate (· + newlines (first ++ gap)) []).outcome
        ((Lexer.ofSource second).lexAll.shift (newlines (first ++ gap))) := by
  have lexed : (Lexer.ofSource first).lexAll = _ := Lexer.lexAll_of_allBlank empty 1
  rw [parse_append_eq_outcome apart blank (by rw [lexed]), lexed]
  rfl

end

/-- Two texts with a blank between them are read one after the other. -/
theorem parse_append (first gap second : String) (nonempty : gap ≠ "")
    (blank : ∀ character ∈ gap.toList, isBlank character) :
    (∀ error, parse first = .error error → error.fault ≠ .unexpectedEnd →
      parse (first ++ gap ++ second) = .error error) ∧
    (∀ program, parse first = .ok program → (∃ character ∈ second.toList, ¬ isBlank character) →
      (∀ error, parse second = .error error →
        parse (first ++ gap ++ second) =
          .error (error.shift (newlines (first ++ gap)))) ∧
      ∀ later, parse second = .ok later →
        ∃ whole, parse (first ++ gap ++ second) = .ok whole ∧
          Node.program? (program.statements ++
            later.statements.map (.shift (newlines (first ++ gap)))) = some whole) ∧
    ((∀ character ∈ first.toList, isBlank character) →
      (∀ error, parse second = .error error →
        parse (first ++ gap ++ second) =
          .error (error.shift (newlines (first ++ gap)))) ∧
      ∀ later, parse second = .ok later →
        parse (first ++ gap ++ second) = .ok (later.shift (newlines (first ++ gap)))) ∧
    ∀ program, parse first = .ok program → (∀ character ∈ second.toList, isBlank character) →
      parse (first ++ gap ++ second) = .ok program := by
  have apart : StartsBlank gap.toList := by
    cases characters : gap.toList with
    | nil => exact absurd (String.toList_eq_nil_iff.mp characters) nonempty
    | cons head rest => exact ⟨head, rest, rfl, blank head (by simp [characters])⟩
  refine ⟨fun error refused early => parse_append_of_error apart blank refused early, ?_, ?_, ?_⟩
  · intro program taken something
    have room := reads_of_not_blank something
    rw [parse_append_of_ok apart blank taken]
    constructor
    · intro error refused
      rw [parse_eq_outcome] at refused
      exact Reader.outcome_relocate_of_error _ _ (.inr room) refused
    · intro later taken'
      rw [parse_eq_outcome] at taken'
      obtain ⟨-, whole⟩ := Reader.outcome_relocate_of_ok
        (newlines (first ++ gap)) program.statements.reverse taken'
      rwa [List.reverse_reverse] at whole
  · intro empty
    rw [parse_append_of_blank apart blank empty]
    constructor
    · intro error refused
      rw [parse_eq_outcome] at refused
      exact Reader.outcome_relocate_of_error _ _ (.inl rfl) refused
    · intro later taken
      rw [parse_eq_outcome] at taken
      obtain ⟨made, whole, read, joined⟩ := Reader.outcome_relocate_of_ok
        (newlines (first ++ gap)) [] taken
      have moved := Node.program?_mapLines (· + newlines (first ++ gap)) later.statements
      rw [made] at moved
      cases joined.symm.trans moved
      exact read
  · intro program taken empty
    exact parse_append_of_ok_blank apart blank taken empty

theorem parse_append_newline :
    parse (")" ++ "\n" ++ "x") = .error ⟨.unexpectedToken ")", 1⟩ ∧
      parse ("x" ++ "\n" ++ ")") = .error ⟨.unexpectedToken ")", 2⟩ := by
  have blank : ∀ character ∈ "\n".toList, isBlank character :=
    List.all_eq_true.mp (by decide : "\n".toList.all isBlank)
  have closing : (Lexer.ofSource ")").lexAll = ⟨[⟨.rightParen, ")", 1⟩], none, ⟨[], 1⟩⟩ := by
    decide +kernel
  have name : (Lexer.ofSource "x").lexAll = ⟨[⟨.identifier, "x", 1⟩], none, ⟨[], 1⟩⟩ := by
    decide +kernel
  have refused : parse ")" = .error ⟨.unexpectedToken ")", 1⟩ := by
    rw [parse_eq_outcome, closing]
    rfl
  have taken : parse "x" =
      .ok (.wrap .program (.wrap .statement (.expression (.identifier "x" 1)))) := by
    rw [parse_eq_outcome, name]
    rfl
  constructor
  · exact (parse_append ")" "\n" "x" (by decide) blank).1 _ refused (by decide)
  · obtain ⟨-, after, -⟩ := parse_append "x" "\n" ")" (by decide) blank
    exact (after _ taken ⟨')', by decide, by decide⟩).1 _ refused

end TypedLisp
