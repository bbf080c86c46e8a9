import TypedLisp.Proofs.Lexing.Tiling

/-! Tokenizing is tiling.

A text is tokenized exactly when it is tiled to its end, and otherwise refused where
its tiling stops. The tiles are the text itself, blanks and lexemes in turn.
-/

set_option autoImplicit false

namespace TypedLisp

/-- A tiling loses nothing: the text is gaps of blanks and the lexemes as written, in turn. -/
theorem Tiles.pieces {line line' : Nat} {text rest : List Char} {tokens : List Token}
    (tiles : Tiles line text tokens line' rest) :
    ∃ gaps, gaps.length = tokens.length ∧ (∀ gap ∈ gaps, AllBlank gap) ∧
      text = (List.zipWith (fun gap token => gap ++ token.lexeme.toList) gaps tokens).flatten ++ rest := by
  induction tiles with
  | done => exact ⟨[], rfl, List.forall_mem_nil _, rfl⟩
  | @token line line' blanks text lexeme after rest kind tokens allBlank longest classifies _ ih =>
    obtain ⟨gaps, length, blank, split⟩ := ih
    refine ⟨blanks :: gaps, by simp [length], List.forall_mem_cons.mpr ⟨allBlank, blank⟩, ?_⟩
    rw [longest.split, split]
    simp

theorem Tiles.forall_token {line line' : Nat} {text rest : List Char} {tokens : List Token}
    (tiles : Tiles line text tokens line' rest) :
    ∀ token ∈ tokens, IsLexeme token.lexeme.toList ∧ Classifies token.lexeme.toList token.kind := by
  induction tiles with
  | done => exact List.forall_mem_nil _
  | token _ longest classifies _ ih =>
    refine List.forall_mem_cons.mpr ⟨?_, ih⟩
    simpa using ⟨longest.isLexeme, classifies⟩

theorem Classifies.reserved_iff {text : List Char} {kind : TokenKind} (classifies : Classifies text kind)
    (word : Word text) : kind ≠ .identifier ↔ capitals text ∈ reservedWords.map Prod.fst := by
  have table : ∀ entry ∈ reservedWords, entry.2 ≠ .identifier := by decide
  cases classifies with
  | numeral numeral => cases word.read?.symm.trans numeral.read?
  | reserved _ member =>
    have listed := List.mem_map_of_mem (f := Prod.fst) member
    exact iff_of_true (table _ member) listed
  | identifier _ absent => simp [absent]
  | sign member => exact absurd member (word.not_mem_signs kind)

section
variable {source : String} {tokens : List Token} {line : Nat} {rest : List Char}

theorem tokenize_of_allBlank (tiles : Tiles 1 source.toList tokens line rest) (blank : AllBlank rest) :
    tokenize source = .ok tokens := by
  have lexed := Lexer.lexAll_of_tiles tiles
  rw [Lexer.lexAll_of_allBlank blank, List.append_nil] at lexed
  simp only [tokenize, Lexer.ofSource, lexed, Lexed.result]

theorem tokenize_of_fails {error : LexicalError} (tiles : Tiles 1 source.toList tokens line rest)
    (fails : Fails line rest error) : tokenize source = .error error := by
  have lexed := Lexer.lexAll_of_tiles tiles
  rw [Lexer.lexAll_of_fails fails, List.append_nil] at lexed
  simp only [tokenize, Lexer.ofSource, lexed, Lexed.result]

end

theorem tokenize_eq_ok_iff_tiles {source : String} {tokens : List Token} :
    tokenize source = .ok tokens ↔
      ∃ line rest, Tiles 1 source.toList tokens line rest ∧ AllBlank rest := by
  constructor
  · intro lexes
    obtain ⟨found, line, rest, tiles, blank | ⟨error, fails⟩⟩ := Lexer.exists_tiles (.ofSource source)
    · cases lexes.symm.trans (tokenize_of_allBlank tiles blank)
      exact ⟨line, rest, tiles, blank⟩
    · cases lexes.symm.trans (tokenize_of_fails tiles fails)
  · rintro ⟨line, rest, tiles, blank⟩
    exact tokenize_of_allBlank tiles blank

theorem tokenize_eq_error_iff_fails {source : String} {error : LexicalError} :
    tokenize source = .error error ↔
      ∃ tokens line rest, Tiles 1 source.toList tokens line rest ∧ Fails line rest error := by
  constructor
  · intro refused
    obtain ⟨found, line, rest, tiles, blank | ⟨other, fails⟩⟩ := Lexer.exists_tiles (.ofSource source)
    · cases refused.symm.trans (tokenize_of_allBlank tiles blank)
    · cases refused.symm.trans (tokenize_of_fails tiles fails)
      exact ⟨found, line, rest, tiles, fails⟩
  · rintro ⟨tokens, line, rest, tiles, fails⟩
    exact tokenize_of_fails tiles fails

/-- Tokens are the longest lexemes of the text, up to its end or to the first place without one. -/
theorem tokenize_adequate (source : String) :
    (∀ tokens, tokenize source = .ok tokens ↔
      ∃ line rest, Tiles 1 source.toList tokens line rest ∧ AllBlank rest) ∧
    (∀ error, tokenize source = .error error ↔
      ∃ tokens line rest, Tiles 1 source.toList tokens line rest ∧ Fails line rest error) ∧
    ∀ tokens line rest, Tiles 1 source.toList tokens line rest →
      (∃ gaps, gaps.length = tokens.length ∧ (∀ gap ∈ gaps, AllBlank gap) ∧
        source.toList =
          (List.zipWith (fun gap token => gap ++ token.lexeme.toList) gaps tokens).flatten ++ rest) ∧
      ∀ token ∈ tokens, Word token.lexeme.toList →
        (token.kind ≠ .identifier ↔
          capitals token.lexeme.toList ∈
            ["MOD", "DEFINE", "FUN", "IF", "AND", "OR", "NOT", "PRINT-NUM", "PRINT-BOOL"]) := by
  refine ⟨fun _ => tokenize_eq_ok_iff_tiles, fun _ => tokenize_eq_error_iff_fails, ?_⟩
  intro tokens line rest tiles
  refine ⟨tiles.pieces, fun token member word => ?_⟩
  obtain ⟨-, classifies⟩ := tiles.forall_token token member
  exact classifies.reserved_iff word

theorem tokenize_adequate_adjacent :
    ∃ tokens line rest gaps, tokens.map Token.lexeme = ["x-1", "1", "-2"] ∧
      Tiles 1 "x-1 1-2".toList tokens line rest ∧ AllBlank rest ∧
      "x-1 1-2".toList =
        (List.zipWith (fun gap token => gap ++ token.lexeme.toList) gaps tokens).flatten ++ rest := by
  let tokens : List Token := [⟨.identifier, "x-1", 1⟩, ⟨.number 1, "1", 1⟩, ⟨.number (-2), "-2", 1⟩]
  have lexed : (Lexer.ofSource "x-1 1-2").lexAll = ⟨tokens, none, ⟨[], 1⟩⟩ := by decide +kernel
  have lexes : tokenize "x-1 1-2" = .ok tokens := by rw [tokenize, lexed]; rfl
  obtain ⟨adequate, -, pieces⟩ := tokenize_adequate "x-1 1-2"
  obtain ⟨line, rest, tiles, blank⟩ := (adequate _).mp lexes
  obtain ⟨⟨gaps, -, -, split⟩, -⟩ := pieces _ line rest tiles
  exact ⟨_, line, rest, gaps, rfl, tiles, blank, split⟩

end TypedLisp
