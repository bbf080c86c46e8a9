import TypedLisp.Lexer
import TypedLisp.Proofs.Lexing.Kinds

/-! Texts as blanks and lexemes.

A tiling splits the start of a text into tokens, each the longest lexeme after some
blanks. Lexing is the tiling that goes as far as possible: to blanks alone, or to
where no lexeme is found or a numeral is out of range.
-/

set_option autoImplicit false

namespace TypedLisp

def AllBlank (text : List Char) : Prop :=
  ∀ character ∈ text, isBlank character

/-- From a line on, a text is some blanks and tokens, then the rest of it on a later line. -/
inductive Tiles : Nat → List Char → List Token → Nat → List Char → Prop
  | done {line : Nat} {text : List Char} : Tiles line text [] line text
  | token {line line' : Nat} {blanks text lexeme after rest : List Char} {kind : TokenKind}
      {tokens : List Token} :
      AllBlank blanks → Longest text lexeme after → Classifies lexeme kind →
      Tiles (line + blanks.count '\n') after tokens line' rest →
      Tiles line (blanks ++ text)
        (⟨kind, String.ofList lexeme, line + blanks.count '\n'⟩ :: tokens) line' rest

/-- No token comes where a text starts. -/
inductive Stuck : List Char → LexicalFault → Prop
  | illegal {first : Char} {rest : List Char} : isBlank first = false → NoLexeme (first :: rest) →
      Stuck (first :: rest) (.illegal first)
  | overflow {text lexeme after : List Char} {value : Int} : Longest text lexeme after →
      Numeral lexeme value → ¬ (-2147483648 ≤ value ∧ value ≤ 2147483647) →
      Stuck text (.overflow (String.ofList lexeme))

inductive Fails (line : Nat) : List Char → LexicalError → Prop
  | intro {blanks text : List Char} {fault : LexicalFault} : AllBlank blanks → Stuck text fault →
      Fails line (blanks ++ text) ⟨fault, line + blanks.count '\n'⟩

/-! ## Blanks -/

theorem isBlank_iff {character : Char} :
    isBlank character ↔ character ∈ [' ', '\t', '\r', '\n'] := by
  simp [isBlank]

theorem IsLexeme.not_isBlank {first : Char} {rest : List Char} (lexeme : IsLexeme (first :: rest)) :
    isBlank first = false := by
  have blanks : [' ', '\t', '\r', '\n'].all fun character => character != '-' && character != '#' &&
      !character.isDigit && !character.isAlpha && !isSign character := by decide
  rw [← Bool.not_eq_true]
  intro blank
  have other := List.all_eq_true.mp blanks first (isBlank_iff.mp blank)
  obtain ⟨_, _, same, starts⟩ := lexeme.starts
  cases same
  simp_all

theorem Longest.starts {text lexeme after : List Char} (longest : Longest text lexeme after) :
    ∃ first rest, text = first :: rest ∧ isBlank first = false := by
  obtain ⟨rfl, isLexeme, -⟩ := longest
  obtain ⟨first, rest, rfl, -⟩ := isLexeme.starts
  exact ⟨first, rest ++ after, rfl, isLexeme.not_isBlank⟩

theorem Stuck.starts {text : List Char} {fault : LexicalFault} (stuck : Stuck text fault) :
    ∃ first rest, text = first :: rest ∧ isBlank first = false := by
  cases stuck with
  | illegal noBlank _ => exact ⟨_, _, rfl, noBlank⟩
  | overflow longest _ _ => exact longest.starts

namespace Lexer

section
variable {blanks text : List Char} (line : Nat)

theorem skipBlanks_append (allBlank : AllBlank blanks) :
    (⟨blanks ++ text, line⟩ : Lexer).skipBlanks =
      (⟨text, line + blanks.count '\n'⟩ : Lexer).skipBlanks := by
  simp only [skipBlanks, List.dropWhile_append_of_pos allBlank, List.takeWhile_append_of_pos allBlank,
    List.count_append, Nat.add_assoc]

theorem skipBlanks_of_not_isBlank (starts : ∃ first rest, text = first :: rest ∧ isBlank first = false) :
    (⟨text, line⟩ : Lexer).skipBlanks = ⟨text, line⟩ := by
  obtain ⟨first, rest, rfl, noBlank⟩ := starts
  simp [skipBlanks, noBlank]

end

/-! ## Pulls -/

theorem pull_of_allBlank {text : List Char} (allBlank : AllBlank text) (line : Nat) :
    (⟨text, line⟩ : Lexer).pull = .ended ⟨[], line + text.count '\n'⟩ := by
  have skipped : (⟨text ++ [], line⟩ : Lexer).skipBlanks = _ := skipBlanks_append line allBlank
  rw [List.append_nil] at skipped
  simp only [pull, skipped]
  rfl

theorem pull_of_longest {blanks text lexeme after : List Char} {kind : TokenKind} (line : Nat)
    (allBlank : AllBlank blanks) (longest : Longest text lexeme after)
    (classifies : Classifies lexeme kind) :
    (⟨blanks ++ text, line⟩ : Lexer).pull =
      .token ⟨kind, String.ofList lexeme, line + blanks.count '\n'⟩
        ⟨after, line + blanks.count '\n'⟩ := by
  have found := longestLexeme?_eq_some_iff.mpr longest
  have ofLexeme := longest.isLexeme.ofLexeme_eq_ok_iff.mpr classifies
  have skipped := (skipBlanks_append line allBlank).trans (skipBlanks_of_not_isBlank _ longest.starts)
  obtain ⟨first, rest, rfl, -⟩ := longest.starts
  simp only [pull, skipped, found, ofLexeme]

theorem pull_of_stuck {blanks text : List Char} {fault : LexicalFault} (line : Nat)
    (allBlank : AllBlank blanks) (stuck : Stuck text fault) :
    (⟨blanks ++ text, line⟩ : Lexer).pull =
      .failed ⟨fault, line + blanks.count '\n'⟩ (finished (line + blanks.count '\n')) := by
  have skipped := (skipBlanks_append line allBlank).trans (skipBlanks_of_not_isBlank _ stuck.starts)
  cases stuck with
  | illegal noBlank noLexeme =>
    simp only [pull, skipped, longestLexeme?_eq_none_iff.mpr noLexeme]
  | overflow longest numeral beyond =>
    have found := longestLexeme?_eq_some_iff.mpr longest
    have ofLexeme := longest.isLexeme.ofLexeme_eq_error_iff.mpr ⟨_, numeral, beyond, rfl⟩
    obtain ⟨first, rest, rfl, -⟩ := longest.starts
    simp only [pull, skipped, found, ofLexeme]

-- A text is blank, or behind its blanks the scanner finds a word of a kind, one out of range, or none.
theorem cases_text (text : List Char) :
    AllBlank text ∨ ∃ blanks rest, text = blanks ++ rest ∧ AllBlank blanks ∧
      ((∃ fault, Stuck rest fault) ∨
        ∃ lexeme after kind, Longest rest lexeme after ∧ Classifies lexeme kind) := by
  have split := List.takeWhile_append_dropWhile (p := isBlank) (l := text)
  have blanks : AllBlank (text.takeWhile isBlank) := List.all_eq_true.mp List.all_takeWhile
  cases rest : text.dropWhile isBlank with
  | nil =>
    rw [rest, List.append_nil] at split
    exact .inl (split ▸ blanks)
  | cons first others =>
    rw [rest] at split
    refine .inr ⟨_, _, split.symm, blanks, ?_⟩
    have noBlank : isBlank first = false := by
      have head := List.head?_dropWhile_not isBlank text
      simpa [rest] using head
    rcases longestLexeme?_spec (first :: others) with ⟨lexeme, after, -, longest⟩ | ⟨-, noLexeme⟩
    · cases found : TokenKind.ofLexeme lexeme with
      | ok kind =>
        exact .inr ⟨lexeme, after, kind, longest, longest.isLexeme.ofLexeme_eq_ok_iff.mp found⟩
      | error fault =>
        obtain ⟨value, numeral, beyond, rfl⟩ := longest.isLexeme.ofLexeme_eq_error_iff.mp found
        exact .inl ⟨_, .overflow longest numeral beyond⟩
    · exact .inl ⟨_, .illegal noBlank noLexeme⟩

/-! ## Whole texts -/

theorem pull_of_nothing {lexer : Lexer} (nothing : lexer.rest = []) : lexer.pull = .ended lexer := by
  obtain ⟨rest, line⟩ := lexer
  cases nothing
  exact pull_finished line

theorem lexAll_of_nothing {lexer : Lexer} (nothing : lexer.rest = []) :
    lexer.lexAll = ⟨[], none, lexer⟩ :=
  lexAll_of_ended (pull_of_nothing nothing)

theorem rest_lexAll (lexer : Lexer) : lexer.lexAll.after.rest = [] := by
  induction lexer using lexAll.induct with
  | case1 lexer after pulled =>
    rw [lexAll_of_ended pulled]
    exact rest_of_ended pulled
  | case2 lexer error after pulled =>
    rw [lexAll_of_failed pulled, rest_of_failed pulled]
    rfl
  | case3 lexer token after pulled ih =>
    rw [lexAll_of_token pulled]
    exact ih

theorem lexAll_of_allBlank {text : List Char} (allBlank : AllBlank text) (line : Nat) :
    (⟨text, line⟩ : Lexer).lexAll = ⟨[], none, ⟨[], line + text.count '\n'⟩⟩ :=
  lexAll_of_ended (pull_of_allBlank allBlank line)

theorem lexAll_of_fails {line : Nat} {text : List Char} {error : LexicalError}
    (fails : Fails line text error) :
    (⟨text, line⟩ : Lexer).lexAll = ⟨[], some error, finished error.line⟩ := by
  cases fails with
  | intro allBlank stuck => exact lexAll_of_failed (pull_of_stuck line allBlank stuck)

/-- Lexing goes along a tiling and on with the rest. -/
theorem lexAll_of_tiles {line line' : Nat} {text rest : List Char} {tokens : List Token}
    (tiles : Tiles line text tokens line' rest) :
    (⟨text, line⟩ : Lexer).lexAll =
      { (⟨rest, line'⟩ : Lexer).lexAll with
        tokens := tokens ++ (⟨rest, line'⟩ : Lexer).lexAll.tokens } := by
  induction tiles with
  | done => rfl
  | token allBlank longest classifies _ ih =>
    rw [lexAll_of_token (pull_of_longest _ allBlank longest classifies), ih]
    rfl

-- Induction along the pulls of the lexer; what each of them gives is decided by the text alone.
theorem exists_tiles (lexer : Lexer) :
    ∃ tokens line rest, Tiles lexer.line lexer.rest tokens line rest ∧
      (AllBlank rest ∨ ∃ error, Fails line rest error) := by
  induction lexer using lexAll.induct with
  | case1 lexer after pulled | case2 lexer error after pulled =>
    refine ⟨[], lexer.line, lexer.rest, .done, ?_⟩
    rcases cases_text lexer.rest with allBlank | ⟨blanks, rest, split, allBlank, stuck | token⟩
    · exact .inl allBlank
    · obtain ⟨fault, stuck⟩ := stuck
      rw [split]
      exact .inr ⟨_, .intro allBlank stuck⟩
    · obtain ⟨lexeme, after, kind, longest, classifies⟩ := token
      have taken := pull_of_longest lexer.line allBlank longest classifies
      rw [← split] at taken
      cases pulled.symm.trans taken
  | case3 lexer token after pulled ih =>
    rcases cases_text lexer.rest with allBlank | ⟨blanks, rest, split, allBlank, stuck | token⟩
    · cases pulled.symm.trans (pull_of_allBlank allBlank lexer.line)
    · obtain ⟨fault, stuck⟩ := stuck
      have failed := pull_of_stuck lexer.line allBlank stuck
      rw [← split] at failed
      cases pulled.symm.trans failed
    · obtain ⟨lexeme, remaining, kind, longest, classifies⟩ := token
      have taken := pull_of_longest lexer.line allBlank longest classifies
      rw [← split] at taken
      cases pulled.symm.trans taken
      obtain ⟨tokens, line, last, tiles, ends⟩ := ih
      rw [split]
      exact ⟨_, line, last, .token allBlank longest classifies tiles, ends⟩

/-- The tokens of a lexer tile its text up to blanks alone or to the failure. -/
theorem tiles_lexAll (lexer : Lexer) :
    ∃ line rest, Tiles lexer.line lexer.rest lexer.lexAll.tokens line rest ∧
      ((AllBlank rest ∧ lexer.lexAll.failure = none) ∨
        ∃ error, Fails line rest error ∧ lexer.lexAll.failure = some error) := by
  obtain ⟨tokens, line, rest, tiles, ends⟩ := lexer.exists_tiles
  have lexed : lexer.lexAll = _ := lexAll_of_tiles tiles
  rcases ends with blank | ⟨error, fails⟩
  · rw [lexAll_of_allBlank blank, List.append_nil] at lexed
    rw [lexed]
    exact ⟨line, rest, tiles, .inl ⟨blank, rfl⟩⟩
  · rw [lexAll_of_fails fails, List.append_nil] at lexed
    rw [lexed]
    exact ⟨line, rest, tiles, .inr ⟨error, fails, rfl⟩⟩

end Lexer

end TypedLisp
