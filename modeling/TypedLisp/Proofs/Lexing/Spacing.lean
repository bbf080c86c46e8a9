import TypedLisp.Proofs.Lexing.Adequacy
import TypedLisp.Proofs.Lexing.Continuation
import TypedLisp.Proofs.Node.Lines

/-! Lexemes written with blanks between them.

A lexeme that a blank or the end of the text follows is the longest one where it
starts. So lexemes kept apart by blanks are lexed one by one, whatever the blanks
are, and only the lines of the tokens depend on these.
-/

set_option autoImplicit false

namespace TypedLisp

/-! ## Where a lexeme ends -/

/-- No lexeme before a text goes on into it, since only a character of a word could be its next one. -/
def EndsWord (text : List Char) : Prop :=
  ∀ first ∈ text.head?, isWordCharacter first = false

theorem EndsWord.of_allBlank {text : List Char} (blank : AllBlank text) : EndsWord text := by
  have blanks : [' ', '\t', '\r', '\n'].all fun character => !isWordCharacter character := by decide
  intro first head
  have listed := isBlank_iff.mp (blank first (List.mem_of_mem_head? head))
  simpa using List.all_eq_true.mp blanks first listed

theorem EndsWord.append {text rest : List Char} (ends : EndsWord text) (nonempty : text ≠ []) :
    EndsWord (text ++ rest) := by
  cases text with
  | nil => exact absurd rfl nonempty
  | cons first others => exact ends

theorem IsLexeme.isWordCharacter_of_mem_tail {first : Char} {rest : List Char}
    (isLexeme : IsLexeme (first :: rest)) : ∀ character ∈ rest, isWordCharacter character := by
  have digit_word (character : Char) (digit : character.isDigit) : isWordCharacter character :=
    isWordCharacter_iff.mpr (.inl (by simp [Char.isAlphanum, digit]))
  obtain ⟨_, _, same, starts⟩ := isLexeme.starts
  cases same
  rcases starts with ⟨-, digits⟩ | ⟨-, characters⟩ | ⟨-, rfl | rfl⟩ | ⟨-, rfl⟩
  · exact fun character member => digit_word character (digits character member)
  · exact characters
  · exact List.forall_mem_singleton.mpr (by decide)
  · exact List.forall_mem_singleton.mpr (by decide)
  · exact List.forall_mem_nil _

theorem IsLexeme.longest_of_endsWord {lexeme rest : List Char} (isLexeme : IsLexeme lexeme)
    (ends : EndsWord rest) : Longest (lexeme ++ rest) lexeme rest := by
  refine ⟨rfl, isLexeme, fun other after split isLexeme' => ?_⟩
  rcases List.append_eq_append_iff.mp split with ⟨beyond, rfl, later⟩ | ⟨inner, rfl, -⟩
  · cases beyond with
    | nil => exact Nat.le_of_eq (congrArg List.length (List.append_nil _))
    | cons next beyond =>
      -- A lexeme that goes on into the rest has its first character as one of a word.
      obtain ⟨first, others, rfl, -⟩ := isLexeme.starts
      have word := isLexeme'.isWordCharacter_of_mem_tail next (by simp)
      have noWord := ends next (by simp [later])
      rw [word] at noWord
      cases noWord
  · simp

theorem IsLexeme.longest {lexeme rest : List Char} (isLexeme : IsLexeme lexeme)
    (apart : rest = [] ∨ StartsBlank rest) : Longest (lexeme ++ rest) lexeme rest := by
  refine isLexeme.longest_of_endsWord ?_
  rcases apart with rfl | ⟨blank, others, rfl, isBlank⟩
  · exact .of_allBlank (List.forall_mem_nil _)
  · exact (EndsWord.of_allBlank (List.forall_mem_singleton.mpr isBlank)).append (List.cons_ne_nil _ _)

/-! ## Texts of lexemes -/

/-- Some lexemes in turn, with blanks before and after and at least one between two of them. -/
inductive Spaced : List Char → List String → Prop
  | done {blanks : List Char} : AllBlank blanks → Spaced blanks []
  | lexeme {blanks rest : List Char} {lexeme : String} {lexemes : List String} :
      AllBlank blanks → rest = [] ∨ StartsBlank rest → Spaced rest lexemes →
      Spaced (blanks ++ (lexeme.toList ++ rest)) (lexeme :: lexemes)

structure Token.IsSpelled (token : Token) : Prop where
  isLexeme : IsLexeme token.lexeme.toList
  classifies : Classifies token.lexeme.toList token.kind
  unlined : token.line = 0

structure Spells (tokens : List Token) (lexemes : List String) : Prop where
  written : tokens.map Token.lexeme = lexemes
  spelled : ∀ token ∈ tokens, token.IsSpelled

theorem Spells.nil : Spells [] [] :=
  ⟨rfl, List.forall_mem_nil _⟩

theorem Spells.cons {token : Token} {tokens : List Token} {lexemes : List String}
    (spelled : token.IsSpelled) (spells : Spells tokens lexemes) :
    Spells (token :: tokens) (token.lexeme :: lexemes) :=
  ⟨congrArg (token.lexeme :: ·) spells.written, List.forall_mem_cons.mpr ⟨spelled, spells.spelled⟩⟩

theorem Spells.append {tokens others : List Token} {lexemes more : List String}
    (spells : Spells tokens lexemes) (later : Spells others more) :
    Spells (tokens ++ others) (lexemes ++ more) := by
  refine ⟨?_, List.forall_mem_append.mpr ⟨spells.spelled, later.spelled⟩⟩
  rw [List.map_append, spells.written, later.written]

theorem Spaced.tiles {text : List Char} {lexemes : List String} (spaced : Spaced text lexemes)
    (line : Nat) {tokens : List Token} (spells : Spells tokens lexemes) :
    ∃ tokens' line' rest, Tiles line text tokens' line' rest ∧ AllBlank rest ∧
      tokens'.map (.mapLine fun _ => 0) = tokens := by
  induction spaced generalizing line tokens with
  | done blank =>
    cases List.map_eq_nil_iff.mp spells.written
    exact ⟨[], line, _, .done, blank, rfl⟩
  | @lexeme blanks rest lexeme lexemes blank apart _ ih =>
    obtain ⟨written, spelled⟩ := spells
    cases tokens with
    | nil => cases written
    | cons token tokens =>
      obtain ⟨rfl, others⟩ := List.cons.inj written
      obtain ⟨first, spelled⟩ := List.forall_mem_cons.mp spelled
      obtain ⟨tokens', line', last, tiles, ended, same⟩ :=
        ih (line + blanks.count '\n') ⟨others, spelled⟩
      refine ⟨_, line', last, .token blank (first.isLexeme.longest apart) first.classifies tiles,
        ended, ?_⟩
      have unlined : (⟨token.kind, token.lexeme, 0⟩ : Token) = token := by rw [← first.unlined]
      rw [List.map_cons, same, Token.mapLine, String.ofList_toList, unlined]

theorem tokenize_of_spaced {source : String} {lexemes : List String} {tokens : List Token}
    (spaced : Spaced source.toList lexemes) (spells : Spells tokens lexemes) :
    ∃ tokens', tokenize source = .ok tokens' ∧ tokens'.map (.mapLine fun _ => 0) = tokens := by
  obtain ⟨tokens', line, rest, tiles, blank, same⟩ := spaced.tiles 1 spells
  exact ⟨tokens', tokenize_eq_ok_iff_tiles.mpr ⟨line, rest, tiles, blank⟩, same⟩

theorem Spaced.indent {text blanks : List Char} {lexemes : List String} (spaced : Spaced text lexemes)
    (blank : AllBlank blanks) : Spaced (blanks ++ text) lexemes := by
  cases spaced with
  | done blank' => exact .done (List.forall_mem_append.mpr ⟨blank, blank'⟩)
  | lexeme blank' apart later =>
    rw [← List.append_assoc]
    exact .lexeme (List.forall_mem_append.mpr ⟨blank, blank'⟩) apart later

theorem spaced_intercalate : (lexemes : List String) → Spaced (" ".intercalate lexemes).toList lexemes
  | [] => .done (List.forall_mem_nil _)
  | [lexeme] => by
      have alone : Spaced ([] ++ (lexeme.toList ++ [])) [lexeme] :=
        .lexeme (List.forall_mem_nil _) (.inl rfl) (.done (List.forall_mem_nil _))
      simpa using alone
  | first :: second :: rest => by
      have space : AllBlank [' '] := List.forall_mem_singleton.mpr rfl
      have later := (spaced_intercalate (second :: rest)).indent space
      have whole : Spaced ([] ++ (first.toList ++ _)) (first :: second :: rest) :=
        .lexeme (List.forall_mem_nil _) (.inr ⟨' ', _, rfl, rfl⟩) later
      simpa [String.intercalate_cons_cons] using whole

/-! ## The lexemes of each kind -/

theorem isSpelled_of_longest {kind : TokenKind} {lexeme : String}
    (longest : longestLexeme? lexeme.toList = some (lexeme.toList, []))
    (classified : (TokenKind.ofLexeme lexeme.toList).toOption = some kind) :
    Token.IsSpelled ⟨kind, lexeme, 0⟩ := by
  have isLexeme := (longestLexeme?_eq_some_iff.mp longest).isLexeme
  cases found : TokenKind.ofLexeme lexeme.toList with
  | error fault =>
    rw [found] at classified
    cases classified
  | ok kind =>
    rw [found] at classified
    cases classified
    exact ⟨isLexeme, isLexeme.ofLexeme_eq_ok_iff.mp found, rfl⟩

theorem spelled_opening : Token.IsSpelled ⟨.leftParen, "(", 0⟩ :=
  isSpelled_of_longest (by decide) (by decide)

theorem spelled_closing : Token.IsSpelled ⟨.rightParen, ")", 0⟩ :=
  isSpelled_of_longest (by decide) (by decide)

theorem spelled_define : Token.IsSpelled ⟨.define, "define", 0⟩ :=
  isSpelled_of_longest (by decide) (by decide)

theorem spelled_function : Token.IsSpelled ⟨.function, "fun", 0⟩ :=
  isSpelled_of_longest (by decide) (by decide)

theorem spelled_conditional : Token.IsSpelled ⟨.conditional, "if", 0⟩ :=
  isSpelled_of_longest (by decide) (by decide)

theorem spelled_operator (operator : Operator) :
    Token.IsSpelled ⟨.operator operator, operator.symbol, 0⟩ := by
  cases operator <;> exact isSpelled_of_longest (by decide) (by decide)

theorem spelled_boolean (value : Bool) :
    Token.IsSpelled ⟨.boolean value, if value then "#t" else "#f", 0⟩ := by
  cases value <;> exact isSpelled_of_longest (by decide) (by decide)

theorem numeral_toDigits (magnitude : Nat) :
    Nat.toDigits 10 magnitude ≠ [] ∧ ∀ digit ∈ Nat.toDigits 10 magnitude, digit.isDigit :=
  ⟨Nat.toDigits_ne_nil, fun _ member => Nat.isDigit_of_mem_toDigits (by decide) (by decide) member⟩

theorem numeral_write (value : Int) : Numeral (Decimal.write value) value := by
  cases value with
  | ofNat magnitude =>
    have numeral := Numeral.positive (numeral_toDigits magnitude).1 (numeral_toDigits magnitude).2
    rwa [Nat.ofDigitChars_ten_toDigits] at numeral
  | negSucc magnitude =>
    have numeral :=
      Numeral.negative (numeral_toDigits (magnitude + 1)).1 (numeral_toDigits (magnitude + 1)).2
    rwa [Nat.ofDigitChars_ten_toDigits] at numeral

theorem spelled_number {value : Int} (low : -2147483648 ≤ value) (high : value ≤ 2147483647) :
    Token.IsSpelled ⟨.number value, String.ofList (Decimal.write value), 0⟩ := by
  have numeral := numeral_write value
  refine ⟨?_, ?_, rfl⟩
  · simpa using IsLexeme.numeral numeral
  · simpa using Classifies.numeral numeral low high

theorem spelled_identifier {name : String} (word : Word name.toList)
    (free : capitals name.toList ∉ reservedWords.map Prod.fst) :
    Token.IsSpelled ⟨.identifier, name, 0⟩ :=
  ⟨.word word, .identifier word free, rfl⟩

theorem toUpper_eq_or_isAlpha (character : Char) : character.toUpper = character ∨ character.isAlpha := by
  unfold Char.toUpper
  split
  next lower =>
    exact .inr (isAlpha_iff.mpr (.inr (isLower_iff.mpr lower)))
  next => exact .inl rfl

theorem word_of_capitals {text : List Char} {first : Char} {rest : List Char}
    (same : capitals text = String.ofList (first :: rest)) (alpha : first.isAlpha)
    (letters : rest.all fun character => character.isAlpha || character == '-') : Word text := by
  have letters : ∀ character ∈ rest, character.isAlpha ∨ character = '-' := by simpa using letters
  have capital {p : Char → Prop} {character : Char} (holds : p character.toUpper)
      (all : ∀ letter : Char, letter.isAlpha → p letter) : p character := by
    rcases toUpper_eq_or_isAlpha character with same | letter
    · rwa [same] at holds
    · exact all character letter
  cases text with
  | nil => cases String.ofList_injective same
  | cons character text =>
    obtain ⟨rfl, rfl⟩ := List.cons.inj (String.ofList_injective same)
    refine .intro (capital (p := (·.isAlpha)) alpha fun _ => id) fun other member => ?_
    refine capital (p := fun other => other.isAlphanum ∨ other = '-') ?_ ?_
    · exact (letters _ (List.mem_map_of_mem member)).imp_left fun letter => by
        simp [Char.isAlphanum, letter]
    · exact fun letter alpha => .inl (by simp [Char.isAlphanum, alpha])

theorem spelled_printNum {keyword : String} (same : capitals keyword.toList = "PRINT-NUM") :
    Token.IsSpelled ⟨.printNum, keyword, 0⟩ := by
  have word : Word keyword.toList :=
    word_of_capitals (same.trans String.ofList_toList.symm) (by decide) (by decide)
  have reserved : ("PRINT-NUM", TokenKind.printNum) ∈ reservedWords := by decide
  exact ⟨.word word, .reserved word (same ▸ reserved), rfl⟩

theorem spelled_printBool {keyword : String} (same : capitals keyword.toList = "PRINT-BOOL") :
    Token.IsSpelled ⟨.printBool, keyword, 0⟩ := by
  have word : Word keyword.toList :=
    word_of_capitals (same.trans String.ofList_toList.symm) (by decide) (by decide)
  have reserved : ("PRINT-BOOL", TokenKind.printBool) ∈ reservedWords := by decide
  exact ⟨.word word, .reserved word (same ▸ reserved), rfl⟩

end TypedLisp
