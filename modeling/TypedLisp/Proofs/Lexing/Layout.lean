import Mathlib.Data.List.Chain
import TypedLisp.Proofs.Lexing.Spacing

/-! Lexemes laid out anew.

The tokens of a text may be written one after another with any blanks between them.
A lexeme ends before a character that is in no word, as blanks and parentheses are,
and a parenthesis ends before anything; so the lexemes are found again, and each
token is on the line that the newlines before it make.
-/

set_option autoImplicit false

namespace TypedLisp

/-- A token with the blanks that are written before it. -/
structure Piece where
  gap : List Char
  token : Token

def Token.IsParenthesis (token : Token) : Prop :=
  token.kind = .leftParen ∨ token.kind = .rightParen

namespace Piece

def text (piece : Piece) : List Char :=
  piece.gap ++ piece.token.lexeme.toList

/-- Neighbours have a blank between them, or touch at a parenthesis. -/
def Apart (first second : Piece) : Prop :=
  second.gap ≠ [] ∨ first.token.IsParenthesis ∨ second.token.IsParenthesis

structure WellFormed (piece : Piece) : Prop where
  blank : AllBlank piece.gap
  isLexeme : IsLexeme piece.token.lexeme.toList
  classifies : Classifies piece.token.lexeme.toList piece.token.kind

end Piece

/-! ## Parentheses -/

theorem longest_parenthesis {lexeme : List Char} (parenthesis : lexeme = ['('] ∨ lexeme = [')'])
    (rest : List Char) : Longest (lexeme ++ rest) lexeme rest := by
  rcases parenthesis with rfl | rfl
  · exact longestLexeme?_eq_some_iff.mp rfl
  · exact longestLexeme?_eq_some_iff.mp rfl

theorem Classifies.parenthesis {text : List Char} {kind : TokenKind} (classifies : Classifies text kind)
    (parenthesis : kind = .leftParen ∨ kind = .rightParen) : text = ['('] ∨ text = [')'] := by
  have noWord : ∀ entry ∈ reservedWords, entry.2 ≠ .leftParen ∧ entry.2 ≠ .rightParen := by decide
  have table : ∀ entry ∈ signs, entry.2 = .leftParen ∨ entry.2 = .rightParen →
      entry.1.toList = ['('] ∨ entry.1.toList = [')'] := by decide
  cases classifies with
  | numeral | identifier => simp at parenthesis
  | reserved _ member => exact (parenthesis.elim (noWord _ member).1 (noWord _ member).2).elim
  | sign member => simpa using table _ member parenthesis

namespace Piece

variable {piece next : Piece} {pieces : List Piece}

theorem WellFormed.parenthesis (formed : piece.WellFormed) (parenthesis : piece.token.IsParenthesis) :
    piece.token.lexeme.toList = ['('] ∨ piece.token.lexeme.toList = [')'] :=
  formed.classifies.parenthesis parenthesis

theorem WellFormed.endsWord (formed : piece.WellFormed)
    (apart : piece.gap ≠ [] ∨ piece.token.IsParenthesis) : EndsWord piece.text := by
  by_cases touching : piece.gap = []
  · have parenthesis := formed.parenthesis (apart.resolve_left (not_not_intro touching))
    rw [Piece.text, touching, List.nil_append]
    rcases parenthesis with paren | paren <;> rw [paren] <;> exact fun _ head => by cases head; rfl
  · exact (EndsWord.of_allBlank formed.blank).append touching

theorem WellFormed.text_ne_nil (formed : piece.WellFormed) : piece.text ≠ [] := by
  obtain ⟨_, _, same, -⟩ := formed.isLexeme.starts
  simp [Piece.text, same]

-- A word ends at a blank or at a parenthesis, a parenthesis wherever it is.
theorem WellFormed.longest {last : List Char} (formed : piece.WellFormed)
    (others : ∀ other ∈ pieces, other.WellFormed) (apart : ∀ next ∈ pieces.head?, piece.Apart next)
    (blank : AllBlank last) :
    Longest (piece.token.lexeme.toList ++ (pieces.flatMap text ++ last)) piece.token.lexeme.toList
      (pieces.flatMap text ++ last) := by
  by_cases parenthesis : piece.token.IsParenthesis
  · exact longest_parenthesis (formed.parenthesis parenthesis) _
  · refine formed.isLexeme.longest_of_endsWord ?_
    cases pieces with
    | nil => exact .of_allBlank blank
    | cons next pieces =>
      have next_formed := others next List.mem_cons_self
      have separate := (apart next rfl).imp_right fun paren => paren.resolve_left parenthesis
      rw [List.flatMap_cons, List.append_assoc]
      exact (next_formed.endsWord separate).append next_formed.text_ne_nil

def placed : Nat → List Piece → List Token
  | _, [] => []
  | line, piece :: pieces =>
      { piece.token with line := line + piece.gap.count '\n' } ::
        placed (line + piece.gap.count '\n') pieces

theorem length_placed (line : Nat) (pieces : List Piece) : (placed line pieces).length = pieces.length := by
  induction pieces generalizing line with
  | nil => rfl
  | cons piece pieces ih => rw [placed, List.length_cons, ih, List.length_cons]

/-- Lexemes hold no newlines, so a token is on the line that all the text before it makes. -/
theorem getElem?_placed {before after : List Piece} (formed : ∀ piece ∈ before, piece.WellFormed)
    (line : Nat) (piece : Piece) :
    (placed line (before ++ piece :: after))[before.length]? =
      some { piece.token with line := line + (before.flatMap text ++ piece.gap).count '\n' } := by
  induction before generalizing line with
  | nil => rfl
  | cons first before ih =>
    obtain ⟨first_formed, formed⟩ := List.forall_mem_cons.mp formed
    have none := count_newline_of_not_blank first_formed.isLexeme.not_blank
    rw [List.cons_append, placed, List.length_cons, List.getElem?_cons_succ, ih formed]
    simp only [List.flatMap_cons, Piece.text, List.count_append, none, Nat.add_assoc, Nat.zero_add]

theorem tiles_placed {last : List Char} (formed : ∀ piece ∈ pieces, piece.WellFormed)
    (apart : pieces.IsChain Apart) (blank : AllBlank last) (line : Nat) :
    ∃ line', Tiles line (pieces.flatMap text ++ last) (placed line pieces) line' last := by
  induction pieces generalizing line with
  | nil => exact ⟨line, .done⟩
  | cons piece pieces ih =>
    obtain ⟨first, others⟩ := List.forall_mem_cons.mp formed
    obtain ⟨neighbour, apart⟩ := List.isChain_cons.mp apart
    obtain ⟨line', tiles⟩ := ih others apart (line + piece.gap.count '\n')
    have longest := first.longest others neighbour blank
    have whole := Tiles.token first.blank longest first.classifies tiles
    rw [String.ofList_toList] at whole
    refine ⟨line', ?_⟩
    rwa [List.flatMap_cons, Piece.text, List.append_assoc, List.append_assoc]

end Piece

/-- However the lexemes of a text are laid out, they are lexed as the same tokens in the same order. -/
theorem tokenize_layout {source : String} {tokens : List Token} (lexes : tokenize source = .ok tokens)
    {pieces : List Piece} (same : pieces.map Piece.token = tokens)
    (blank : ∀ piece ∈ pieces, AllBlank piece.gap) (apart : pieces.IsChain Piece.Apart)
    {last : List Char} (ended : AllBlank last) :
    ∃ relexed, tokenize (String.ofList (pieces.flatMap Piece.text ++ last)) = .ok relexed ∧
      relexed.length = tokens.length ∧
      ∀ before piece after, pieces = before ++ piece :: after →
        relexed[before.length]? = some { piece.token with
          line := 1 + (before.flatMap Piece.text ++ piece.gap).count '\n' } := by
  obtain ⟨_, _, tiles, -⟩ := tokenize_eq_ok_iff_tiles.mp lexes
  have formed : ∀ piece ∈ pieces, piece.WellFormed := by
    intro piece member
    have listed : piece.token ∈ tokens := same ▸ List.mem_map_of_mem member
    obtain ⟨isLexeme, classifies⟩ := tiles.forall_token piece.token listed
    exact ⟨blank piece member, isLexeme, classifies⟩
  obtain ⟨line, laid⟩ := Piece.tiles_placed formed apart ended 1
  refine ⟨Piece.placed 1 pieces, ?_, ?_, ?_⟩
  · refine tokenize_eq_ok_iff_tiles.mpr ⟨line, last, ?_, ended⟩
    rwa [String.toList_ofList]
  · rw [Piece.length_placed, ← same, List.length_map]
  · rintro before piece after rfl
    exact Piece.getElem?_placed (fun other member => formed other (List.mem_append_left _ member)) 1 piece

/-- A minus beside a parenthesis, one in a word and one of a numeral, over three lines. -/
theorem tokenize_layout_minuses :
    let tokens : List Token := [⟨.leftParen, "(", 1⟩, ⟨.operator .sub, "-", 1⟩, ⟨.identifier, "x-1", 1⟩,
      ⟨.number (-2), "-02", 1⟩, ⟨.rightParen, ")", 1⟩]
    let pieces : List Piece := List.zipWith Piece.mk [['\n'], [], ['\t', ' '], ['\r', '\n'], []] tokens
    tokenize "(- x-1 -02 )" = .ok tokens ∧
      String.ofList (pieces.flatMap Piece.text ++ ['\n']) = "\n(-\t x-1\r\n-02)\n" ∧
      ∃ relexed, tokenize "\n(-\t x-1\r\n-02)\n" = .ok relexed ∧ relexed.length = 5 ∧
        relexed[3]? = some ⟨.number (-2), "-02", 3⟩ := by
  intro tokens pieces
  have lexed : (Lexer.ofSource "(- x-1 -02 )").lexAll = ⟨tokens, none, ⟨[], 1⟩⟩ := by decide +kernel
  have lexes : tokenize "(- x-1 -02 )" = .ok tokens := by rw [tokenize, lexed]; rfl
  have blank : ∀ piece ∈ pieces, AllBlank piece.gap := by
    simp [pieces, tokens, AllBlank, isBlank]
  have apart : pieces.IsChain Piece.Apart := by
    simp [pieces, tokens, Piece.Apart, Token.IsParenthesis]
  have written : String.ofList (pieces.flatMap Piece.text ++ ['\n']) = "\n(-\t x-1\r\n-02)\n" := by
    decide +kernel
  have newline : AllBlank ['\n'] := List.forall_mem_singleton.mpr rfl
  obtain ⟨relexed, relexes, length, places⟩ := tokenize_layout lexes rfl blank apart newline
  rw [written] at relexes
  exact ⟨lexes, written, relexed, relexes, length, places (pieces.take 3) _ _ rfl⟩

end TypedLisp
