import Mathlib.Data.List.Forall2
import TypedLisp.Proofs.Reading.Progress
import TypedLisp.Proofs.Writing.Adequacy

/-! Reading looks at the classes of tokens.

A reader uses the text of names and of print keywords, and of any other token its
kind alone; lines it copies. So two readers that differ in lines only go on to differ
in lines only, as long as their tokens agree, and refuse the same token for the same
reason. The induction is on the two lists of tokens side by side.
-/

set_option autoImplicit false

namespace TypedLisp

/-- The same fault, but for the text found where the grammar wants another. -/
inductive Fault.Resembles : Fault → Fault → Prop
  | same (fault : Fault) : Resembles fault fault
  | unexpectedToken (lexeme other : String) :
      Resembles (.unexpectedToken lexeme) (.unexpectedToken other)

/-- Two values that are alike, or two errors that resemble each other on whatever lines. -/
inductive Corresponds {Value : Type} (alike : Value → Value → Prop) :
    Except SourceError Value → Except SourceError Value → Prop
  | ok {value other : Value} : alike value other → Corresponds alike (.ok value) (.ok other)
  | error {error other : SourceError} : error.fault.Resembles other.fault →
      Corresponds alike (.error error) (.error other)

namespace Corresponds

variable {Value Other : Type} {alike : Value → Value → Prop} {same : Other → Other → Prop}

theorem refl (reflexive : ∀ value, alike value value) (result : Except SourceError Value) :
    Corresponds alike result result := by
  cases result with
  | ok value => exact .ok (reflexive value)
  | error error => exact .error (.same error.fault)

theorem bind {result result' : Except SourceError Value} (corresponds : Corresponds alike result result')
    {next next' : Value → Except SourceError Other}
    (go : ∀ {value other}, alike value other → Corresponds same (next value) (next' other)) :
    Corresponds same (result.bind next) (result'.bind next') := by
  cases corresponds with
  | ok values => exact go values
  | error resembles => exact .error resembles

theorem of_mapResult {change : Nat → Nat} {mapLines : Value → Value}
    {result result' : Except SourceError Value}
    (corresponds : Corresponds alike (mapResult change mapLines result) (mapResult change mapLines result')) :
    Corresponds (fun value other => alike (mapLines value) (mapLines other)) result result' := by
  cases result <;> cases result' <;> cases corresponds
  case ok.ok values => exact .ok values
  case error.error resembles => exact .error resembles

end Corresponds

instance (token other : Token) : Decidable (token.Agrees other) :=
  decidable_of_iff (token.kind = other.kind ∧
      (token.kind ∈ [.identifier, .printNum, .printBool] → token.lexeme = other.lexeme))
    ⟨fun ⟨kind, lexeme⟩ => ⟨kind, lexeme⟩, fun agrees => ⟨agrees.kind, agrees.lexeme⟩⟩

namespace Reader

/-! ## Steps -/

section
variable (reader : Reader) {token other : Token}

theorem corresponds_unexpected {Value : Type} (alike : Value → Value → Prop) :
    Corresponds alike (unexpected token) (unexpected other) :=
  .error (.unexpectedToken token.lexeme other.lexeme)

section
variable (kind : token.kind = other.kind) (line : token.line = other.line)
  (free : token.kind ∉ [.identifier, .printNum, .printBool])
include kind line free

theorem corresponds_begin (context : Context) :
    Corresponds (· = ·) (reader.begin context token) (reader.begin context other) := by
  unfold begin
  rw [← kind, ← line]
  cases found : token.kind with
  | number | boolean | leftParen => exact .refl (fun _ => rfl) _
  | identifier => simp [found] at free
  | _ => exact corresponds_unexpected _

theorem corresponds_openForm (opened : Nat) (context : Context) :
    Corresponds (· = ·) (reader.openForm opened context token)
      (reader.openForm opened context other) := by
  unfold openForm
  rw [← kind, ← line]
  cases found : token.kind with
  | operator | conditional | function | leftParen => exact .refl (fun _ => rfl) _
  | identifier => simp [found] at free
  | _ => exact corresponds_unexpected _

/-- The text of such a token shows in its refusal and nowhere else. -/
theorem corresponds_step_of_free :
    Corresponds (· = ·) (reader.step token) (reader.step other) := by
  have began := corresponds_begin reader kind line free
  have opened := corresponds_openForm reader kind line free
  unfold step
  rw [← kind, ← line]
  cases reader.state with
  | idle =>
    cases found : token.kind with
    | leftParen => exact .refl (fun _ => rfl) _
    | _ => exact began _
  | statementHead line =>
    cases found : token.kind with
    | define => exact .refl (fun _ => rfl) _
    | printNum | printBool => simp [found] at free
    | _ => exact opened _ _
  | inside context =>
    cases found : token.kind with
    | rightParen =>
      obtain ⟨statement, forms⟩ := context
      cases forms with
      | nil => exact began _
      | cons form outer =>
        dsimp only
        cases form.hole.whole? with
        | none => exact corresponds_unexpected _
        | some whole => exact .refl (fun _ => rfl) _
    | _ => exact began _
  | head line context => exact opened _ _
  | parameters role line listLine read context =>
    cases found : token.kind with
    | identifier => simp [found] at free
    | rightParen => exact .refl (fun _ => rfl) _
    | _ => exact corresponds_unexpected _
  | definedName line =>
    cases found : token.kind with
    | identifier => simp [found] at free
    | _ => exact corresponds_unexpected _
  | statementEnd | closing | calleeHead | parametersStart =>
    dsimp only
    split
    · exact .refl (fun _ => rfl) _
    · exact corresponds_unexpected _

end

-- Tokens of the three kinds whose text is kept agree only if they are one token.
theorem corresponds_step (agrees : token.Agrees other) (line : token.line = other.line) :
    Corresponds (· = ·) (reader.step token) (reader.step other) := by
  by_cases kept : token.kind ∈ [.identifier, .printNum, .printBool]
  · have same : token = other := by
      obtain ⟨kind, lexeme⟩ := agrees
      cases token
      cases other
      simp_all
    rw [same]
    exact .refl (fun _ => rfl) _
  · exact reader.corresponds_step_of_free agrees.kind line kept

end

/-- Readers that differ at most in their lines. -/
def Alike (reader other : Reader) : Prop :=
  reader.relocate (fun _ => 0) [] = other.relocate (fun _ => 0) []

section
variable {reader other : Reader}

theorem Alike.step (alike : reader.Alike other) {token token' : Token} (agrees : token.Agrees token') :
    Corresponds Alike (reader.step token) (other.step token') := by
  -- On line zero the readers are one reader, and tokens that agree are on one line.
  have moved := step_relocate (fun _ => 0) [] reader token
  have moved' := step_relocate (fun _ => 0) [] other token'
  have unlined : (token.mapLine fun _ => 0).Agrees (token'.mapLine fun _ => 0) :=
    ⟨agrees.kind, agrees.lexeme⟩
  have steps := corresponds_step (reader.relocate (fun _ => 0) []) unlined rfl
  rw [moved, alike, moved'] at steps
  exact steps.of_mapResult

theorem Alike.finish (alike : reader.Alike other) (line line' : Nat) :
    Corresponds (fun tree other => tree.unlined = other.unlined) (reader.finish line)
      (other.finish line') := by
  have programs : reader.program?.map Node.unlined = other.program?.map Node.unlined := by
    have ended := program?_mapLines (fun _ => 0) reader
    have ended' := program?_mapLines (fun _ => 0) other
    rw [alike] at ended
    exact ended.symm.trans ended'
  unfold Reader.finish
  cases ended : reader.program? with
  | none =>
    rw [ended, Option.map_none, eq_comm, Option.map_eq_none_iff] at programs
    rw [programs]
    exact .error (.same .unexpectedEnd)
  | some tree =>
    rw [ended, Option.map_some, eq_comm, Option.map_eq_some_iff] at programs
    obtain ⟨tree', ended', same⟩ := programs
    rw [ended']
    exact .ok same.symm

/-! ## Runs -/

theorem Alike.feed (alike : reader.Alike other) {tokens others : List Token}
    (agree : List.Forall₂ Token.Agrees tokens others) :
    Corresponds Alike (reader.feed tokens) (other.feed others) := by
  induction agree generalizing reader other with
  | nil => exact .ok alike
  | cons agrees _ ih =>
    rw [feed_cons, feed_cons]
    exact (alike.step agrees).bind ih

theorem Alike.outcome (alike : reader.Alike other) {lexed lexed' : Lexed}
    (agree : List.Forall₂ Token.Agrees lexed.tokens lexed'.tokens)
    (failures : lexed.failure.map Located.fault = lexed'.failure.map Located.fault) :
    Corresponds (fun tree other => tree.unlined = other.unlined) (reader.outcome lexed)
      (other.outcome lexed') := by
  refine (alike.feed agree).bind fun alike => ?_
  cases failure : lexed.failure with
  | none =>
    rw [failure, Option.map_none, eq_comm, Option.map_eq_none_iff] at failures
    rw [failures]
    exact alike.finish _ _
  | some error =>
    rw [failure, Option.map_some, eq_comm, Option.map_eq_some_iff] at failures
    obtain ⟨error', failure', same⟩ := failures
    rw [failure']
    have faults : (error.map Fault.lexical).fault = (error'.map Fault.lexical).fault :=
      congrArg Fault.lexical same.symm
    exact .error (faults ▸ .same _)

theorem Alike.pulled (alike : reader.Alike other) {lexer lexer' : Lexer}
    (agree : List.Forall₂ Token.Agrees lexer.lexAll.tokens lexer'.lexAll.tokens) :
    (reader.run lexer).pulled.length = (other.run lexer').pulled.length := by
  rcases reader.run_cases lexer with ⟨last, taken, run⟩ |
    ⟨before, token, later, next, error, after, split, taken, refused, run, -⟩
  · have fed := alike.feed agree
    rw [taken] at fed
    cases taken' : other.feed lexer'.lexAll.tokens with
    | error error =>
      rw [taken'] at fed
      cases fed
    | ok last' => rw [run, run_of_feed taken', agree.length_eq]
  · -- The other list splits where this one does, and its token there is refused too.
    rw [split] at agree
    have first := List.forall₂_take_append _ _ _ agree.flip
    have rest := List.forall₂_drop_append _ _ _ agree.flip
    generalize front : lexer'.lexAll.tokens.take before.length = before' at first
    generalize back : lexer'.lexAll.tokens.drop before.length = later' at rest
    cases rest with
    | @cons token' _ later' _ agrees _ =>
      have fed := alike.feed first.flip
      rw [taken] at fed
      cases taken' : other.feed before' with
      | error error =>
        rw [taken'] at fed
        cases fed
      | ok next' =>
        rw [taken'] at fed
        cases fed with
        | ok alike =>
          have stepped := alike.step agrees
          rw [refused] at stepped
          cases refused' : next'.step token' with
          | ok last =>
            rw [refused'] at stepped
            cases stepped
          | error error' =>
            have split' : lexer'.lexAll.tokens = before' ++ token' :: later' := by
              rw [← front, ← back, List.take_append_drop]
            obtain ⟨after', run', -⟩ := run_of_refusal split' taken' refused'
            rw [run, run', List.length_append, List.length_append, first.length_eq]
            rfl

end

end Reader

/-! ## Spellings -/

/-- Spellings of one lexeme: one text, a reserved word in any letter case, or one number. -/
inductive Respells : String → String → Prop
  | same (lexeme : String) : Respells lexeme lexeme
  | word {lexeme other : String} : Word lexeme.toList → Word other.toList →
      capitals lexeme.toList = capitals other.toList →
      capitals lexeme.toList ∈ ["MOD", "DEFINE", "FUN", "IF", "AND", "OR", "NOT"] →
      Respells lexeme other
  | number {lexeme other : String} {value : Int} : Numeral lexeme.toList value →
      Numeral other.toList value → Respells lexeme other

theorem Classifies.kind_eq {text : List Char} {kind other : TokenKind} (isLexeme : IsLexeme text)
    (classifies : Classifies text kind) (classifies' : Classifies text other) : kind = other :=
  Except.ok.inj ((isLexeme.ofLexeme_eq_ok_iff.mpr classifies).symm.trans
    (isLexeme.ofLexeme_eq_ok_iff.mpr classifies'))

theorem Classifies.mem_reservedWords {text : List Char} {kind : TokenKind} (word : Word text)
    (classifies : Classifies text kind) (reserved : capitals text ∈ reservedWords.map Prod.fst) :
    (capitals text, kind) ∈ reservedWords := by
  cases classifies with
  | numeral numeral => cases word.read?.symm.trans numeral.read?
  | reserved _ member => exact member
  | identifier _ absent => exact absurd reserved absent
  | sign member => exact absurd member (word.not_mem_signs kind)

-- Only reserved words and numerals are respelled, and tokens of their kinds do not keep the text.
theorem Respells.agrees {token other : Token} (respells : Respells token.lexeme other.lexeme)
    (lexed : IsLexeme token.lexeme.toList ∧ Classifies token.lexeme.toList token.kind)
    (lexed' : IsLexeme other.lexeme.toList ∧ Classifies other.lexeme.toList other.kind) :
    token.Agrees other := by
  obtain ⟨isLexeme, classifies⟩ := lexed
  obtain ⟨-, classifies'⟩ := lexed'
  obtain ⟨kind, lexeme, line⟩ := token
  obtain ⟨kind', lexeme', line'⟩ := other
  cases respells with
  | same => exact ⟨classifies.kind_eq isLexeme classifies', fun _ => rfl⟩
  | word word word' same reserved =>
    have table : ["MOD", "DEFINE", "FUN", "IF", "AND", "OR", "NOT"] ⊆ reservedWords.map Prod.fst := by
      decide
    have free : ∀ entry ∈ reservedWords,
        entry.1 ∈ ["MOD", "DEFINE", "FUN", "IF", "AND", "OR", "NOT"] →
          entry.2 ∉ [.identifier, .printNum, .printBool] := by decide
    have member := classifies.mem_reservedWords word (table reserved)
    have member' := classifies'.mem_reservedWords word' (same ▸ table reserved)
    rw [← same] at member'
    have found := (lookup_eq_some_iff_mem reservedWords_distinct).mpr member
    have found' := (lookup_eq_some_iff_mem reservedWords_distinct).mpr member'
    exact ⟨Option.some.inj (found.symm.trans found'), fun kept => absurd kept (free _ member reserved)⟩
  | number numeral numeral' =>
    obtain ⟨-, same⟩ := numeral.classifies_iff.mp classifies
    obtain ⟨-, same'⟩ := numeral'.classifies_iff.mp classifies'
    refine ⟨same.trans same'.symm, fun kept => ?_⟩
    dsimp only at same kept
    rw [same] at kept
    simp at kept

theorem lexed_of_lexAll (source : String) :
    ∀ token ∈ (Lexer.ofSource source).lexAll.tokens,
      IsLexeme token.lexeme.toList ∧ Classifies token.lexeme.toList token.kind := by
  obtain ⟨tokens, line, rest, tiles, blank | ⟨error, fails⟩⟩ := Lexer.exists_tiles (.ofSource source)
  · rw [show (Lexer.ofSource source).lexAll = _ from Lexer.lexAll_of_tiles tiles,
      Lexer.lexAll_of_allBlank blank, List.append_nil]
    exact tiles.forall_token
  · rw [show (Lexer.ofSource source).lexAll = _ from Lexer.lexAll_of_tiles tiles,
      Lexer.lexAll_of_fails fails, List.append_nil]
    exact tiles.forall_token

/-! ## Texts -/

/-- Readings that pull equally many tokens, to one result but for lines and the text found. -/
structure Reading.Resembles (reading other : Reading) : Prop where
  pulled : reading.pulled.length = other.pulled.length
  result : Corresponds (fun tree other => tree.unlined = other.unlined) reading.result other.result

theorem resembles_of_agrees {first second : String}
    (agree : List.Forall₂ Token.Agrees (Lexer.ofSource first).lexAll.tokens
      (Lexer.ofSource second).lexAll.tokens)
    (failures : (Lexer.ofSource first).lexAll.failure.map Located.fault =
      (Lexer.ofSource second).lexAll.failure.map Located.fault) :
    (Lexer.ofSource first).read.Resembles (Lexer.ofSource second).read := by
  have alike : Reader.start.Alike Reader.start := rfl
  refine ⟨alike.pulled agree, ?_⟩
  have outcomes := alike.outcome agree failures
  rwa [← parse_eq_outcome, ← parse_eq_outcome] at outcomes

theorem agrees_of_respells {first second : String}
    (respelled : List.Forall₂ Respells ((Lexer.ofSource first).lexAll.tokens.map Token.lexeme)
      ((Lexer.ofSource second).lexAll.tokens.map Token.lexeme)) :
    List.Forall₂ Token.Agrees (Lexer.ofSource first).lexAll.tokens
      (Lexer.ofSource second).lexAll.tokens := by
  rw [List.forall₂_map_left_iff, List.forall₂_map_right_iff] at respelled
  refine List.forall₂_iff_get.mpr ⟨respelled.length_eq, fun index bound bound' => ?_⟩
  exact (respelled.get bound bound').agrees (lexed_of_lexAll first _ (List.get_mem ..))
    (lexed_of_lexAll second _ (List.get_mem ..))

/-- Texts whose tokens agree are read alike, so lines and spellings of lexemes decide nothing. -/
theorem reading_of_agreement {first second : String}
    (failures : (Lexer.ofSource first).lexAll.failure.map Located.fault =
      (Lexer.ofSource second).lexAll.failure.map Located.fault) :
    (List.Forall₂ Token.Agrees (Lexer.ofSource first).lexAll.tokens
        (Lexer.ofSource second).lexAll.tokens →
      (Lexer.ofSource first).read.Resembles (Lexer.ofSource second).read) ∧
    (List.Forall₂ Respells ((Lexer.ofSource first).lexAll.tokens.map Token.lexeme)
        ((Lexer.ofSource second).lexAll.tokens.map Token.lexeme) →
      (Lexer.ofSource first).read.Resembles (Lexer.ofSource second).read) :=
  ⟨fun agree => resembles_of_agrees agree failures,
    fun respelled => resembles_of_agrees (agrees_of_respells respelled) failures⟩

/-- Capitals, zeros and a line more; both texts are refused at their ninth token. -/
theorem reading_of_agreement_respelled :
    (Lexer.ofSource "(print-num (IF #t 007 x) MOD)").read.Resembles
        (Lexer.ofSource "(print-num\n(if #t 7 x) mod)").read ∧
      parse "(print-num (IF #t 007 x) MOD)" = .error ⟨.unexpectedToken "MOD", 1⟩ ∧
      (Lexer.ofSource "(print-num\n(if #t 7 x) mod)").read.pulled.length = 9 := by
  let tokens : List Token :=
    [⟨.leftParen, "(", 1⟩, ⟨.printNum, "print-num", 1⟩, ⟨.leftParen, "(", 1⟩, ⟨.conditional, "IF", 1⟩,
      ⟨.boolean true, "#t", 1⟩, ⟨.number 7, "007", 1⟩, ⟨.identifier, "x", 1⟩, ⟨.rightParen, ")", 1⟩,
      ⟨.operator .mod, "MOD", 1⟩, ⟨.rightParen, ")", 1⟩]
  let others : List Token :=
    [⟨.leftParen, "(", 1⟩, ⟨.printNum, "print-num", 1⟩, ⟨.leftParen, "(", 2⟩, ⟨.conditional, "if", 2⟩,
      ⟨.boolean true, "#t", 2⟩, ⟨.number 7, "7", 2⟩, ⟨.identifier, "x", 2⟩, ⟨.rightParen, ")", 2⟩,
      ⟨.operator .mod, "mod", 2⟩, ⟨.rightParen, ")", 2⟩]
  have lexed : (Lexer.ofSource "(print-num (IF #t 007 x) MOD)").lexAll = ⟨tokens, none, ⟨[], 1⟩⟩ := by
    decide +kernel
  have lexed' : (Lexer.ofSource "(print-num\n(if #t 7 x) mod)").lexAll = ⟨others, none, ⟨[], 2⟩⟩ := by
    decide +kernel
  have failures : (Lexer.ofSource "(print-num (IF #t 007 x) MOD)").lexAll.failure.map Located.fault =
      (Lexer.ofSource "(print-num\n(if #t 7 x) mod)").lexAll.failure.map Located.fault := by
    rw [lexed, lexed']
  have agree : List.Forall₂ Token.Agrees tokens others := by decide
  have resembles := (reading_of_agreement failures).1 (by rwa [lexed, lexed'])
  refine ⟨resembles, by decide +kernel, ?_⟩
  rw [← resembles.pulled]
  decide +kernel

end TypedLisp
