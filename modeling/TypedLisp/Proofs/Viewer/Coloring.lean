import TypedLisp.Proofs.Lexing.Spacing
import TypedLisp.Proofs.Viewer.Reporting
import TypedLisp.Proofs.Viewer.Words

/-! Colors of tokens.

The highlighter does not lex. It has tables of its own for words in capitals, and
takes whatever reads as an integer of 64 bits for a number. On a lexeme that stands
alone both come to the same: a word is in its tables if it is reserved, no numeral
is, and the integers of tokens are among those of 64 bits.
-/

set_option autoImplicit false

namespace TypedLisp

theorem isAlpha_toUpper {character : Char} (alpha : character.isAlpha) :
    character.toUpper.isAlpha := by
  unfold Char.toUpper
  split
  next lower =>
    have small : 'a'.val.toNat = 97 ∧ 'z'.val.toNat = 122 := ⟨rfl, rfl⟩
    have capital : 'A'.val.toNat = 65 ∧ 'Z'.val.toNat = 90 := ⟨rfl, rfl⟩
    have shift : ('A'.val - 'a'.val).toNat = 2 ^ 32 - 32 := rfl
    simp only [isAlpha_iff, isUpper_iff, UInt32.le_iff_toNat_le, UInt32.toNat_add] at lower ⊢
    omega
  next => exact alpha

namespace Highlight

/-- The style of a token. -/
def styleOfToken : TokenKind → Style
  | .define | .function | .conditional | .printNum | .printBool =>
      (Style.colored Theme.keyword).inBold
  | .operator _ => .colored Theme.operator
  | .boolean _ => .colored Theme.boolean
  | .number _ => .colored Theme.number
  | .identifier => .colored Theme.text
  | .leftParen | .rightParen => .colored Theme.bracket

/-! ## Delimiters -/

theorem isDelimiter_of_isAlphanum {character : Char} (alphanumeric : character.isAlphanum) :
    isDelimiter character = false := by
  have digits : '0'.val.toNat = 48 ∧ '9'.val.toNat = 57 := ⟨rfl, rfl⟩
  have capitals : 'A'.val.toNat = 65 ∧ 'Z'.val.toNat = 90 := ⟨rfl, rfl⟩
  have small : 'a'.val.toNat = 97 ∧ 'z'.val.toNat = 122 := ⟨rfl, rfl⟩
  have same : character.toNat = character.val.toNat := rfl
  have parentheses : character ≠ '(' ∧ character ≠ ')' := by
    constructor <;> rintro rfl <;> simp at alphanumeric
  simp only [Char.isAlphanum, Char.isDigit, Bool.or_eq_true, Bool.and_eq_true, decide_eq_true_eq,
    isAlpha_iff, isUpper_iff, isLower_iff, UInt32.le_iff_toNat_le] at alphanumeric
  simp [isDelimiter, Text.isWhitespace, Text.inRanges, Text.whitespaceRanges, parentheses]
  omega

variable {text : List Char}

theorem isDelimiter_of_isDigit {digit : Char} (isDigit : digit.isDigit) : isDelimiter digit = false :=
  isDelimiter_of_isAlphanum (Bool.or_eq_true_iff.mpr (.inr isDigit))

theorem isDelimiter_minus : isDelimiter '-' = false := by decide

theorem ne_nil_of_numeral {value : Int} (numeral : Numeral text value) : text ≠ [] := by
  obtain ⟨first, rest, rfl, -⟩ := numeral.starts
  exact List.cons_ne_nil first rest

theorem ne_nil_of_word (word : Word text) : text ≠ [] := by
  cases word with
  | intro => exact List.cons_ne_nil _ _

theorem plain_of_numeral {value : Int} (numeral : Numeral text value) :
    ∀ character ∈ text, isDelimiter character = false := by
  obtain ⟨first, rest, rfl, starts, digits⟩ := numeral.starts
  refine List.forall_mem_cons.mpr ⟨?_, fun digit member => isDelimiter_of_isDigit (digits digit member)⟩
  rcases starts with rfl | digit
  · exact isDelimiter_minus
  · exact isDelimiter_of_isDigit digit

theorem plain_of_word (word : Word text) : ∀ character ∈ text, isDelimiter character = false := by
  cases word with
  | intro alpha rest =>
    refine List.forall_mem_cons.mpr ⟨isDelimiter_of_isAlphanum (Bool.or_eq_true_iff.mpr (.inl alpha)), ?_⟩
    intro character member
    rcases rest character member with alphanumeric | rfl
    · exact isDelimiter_of_isAlphanum alphanumeric
    · exact isDelimiter_minus

/-! ## Tables -/

def tableStyle? (capitals : String) : Option Style :=
  if keywords.contains capitals then some (Style.colored Theme.keyword).inBold
  else if operators.contains capitals then some (.colored Theme.operator)
  else if ["#T", "#F"].contains capitals then some (.colored Theme.boolean)
  else none

theorem styleOfWord_eq (word : List Char) :
    styleOfWord word = (tableStyle? (capitals word)).getD
      (if (Decimal.read? word).any Decimal.signed64.contains then .colored Theme.number
        else .colored Theme.text) := by
  unfold styleOfWord tableStyle? capitals
  dsimp only
  split_ifs <;> rfl

def tabled : List String :=
  keywords ++ operators ++ ["#T", "#F"]

theorem tableStyle?_eq_none {capitals : String} (absent : capitals ∉ tabled) :
    tableStyle? capitals = none := by
  simp only [tabled, List.mem_append, not_or] at absent
  simp [tableStyle?, absent]

theorem digit_of_numeral {value : Int} (numeral : Numeral text value) :
    ∃ digit ∈ text, digit.isDigit := by
  cases numeral with
  | positive nonempty digits =>
    obtain ⟨digit, rest, rfl⟩ := List.exists_cons_of_ne_nil nonempty
    exact ⟨digit, List.mem_cons_self, digits digit List.mem_cons_self⟩
  | negative nonempty digits =>
    obtain ⟨digit, rest, rfl⟩ := List.exists_cons_of_ne_nil nonempty
    exact ⟨digit, .tail _ List.mem_cons_self, digits digit List.mem_cons_self⟩

theorem tableStyle?_of_numeral {value : Int} (numeral : Numeral text value) :
    tableStyle? (capitals text) = none := by
  have table : ∀ entry ∈ tabled, entry.toList.any Char.isDigit = false := by decide
  obtain ⟨digit, member, isDigit⟩ := digit_of_numeral numeral
  -- A numeral has a digit, which is the same in capitals.
  have kept : digit.toUpper = digit := by
    simpa [isAlpha_eq_false_of_isDigit isDigit] using toUpper_eq_or_isAlpha digit
  refine tableStyle?_eq_none fun listed => ?_
  have member' : digit ∈ (capitals text).toList := by
    rw [capitals, String.toList_ofList]
    exact List.mem_map.mpr ⟨digit, member, kept⟩
  exact List.any_eq_false.mp (table _ listed) digit member' isDigit

theorem tableStyle?_of_word (word : Word text) (free : capitals text ∉ reservedWords.map Prod.fst) :
    tableStyle? (capitals text) = none := by
  have table : ∀ entry ∈ tabled, entry ∈ reservedWords.map Prod.fst ∨
      entry.toList.head?.any Char.isAlpha = false := by decide
  refine tableStyle?_eq_none fun listed => ?_
  rcases table _ listed with reserved | unlettered
  · exact free reserved
  · cases word with
    | intro alpha _ => simp [capitals, isAlpha_toUpper alpha] at unlettered

theorem styleOfPiece_of_word (word : Word text) :
    styleOfPiece text = (tableStyle? (capitals text)).getD (.colored Theme.text) := by
  rw [styleOfPiece_of_plain (ne_nil_of_word word) (plain_of_word word), styleOfWord_eq, word.read?]
  rfl

theorem styleOfPiece_of_numeral {value : Int} (numeral : Numeral text value)
    (within : Decimal.signed64.contains value) : styleOfPiece text = .colored Theme.number := by
  rw [styleOfPiece_of_plain (ne_nil_of_numeral numeral) (plain_of_numeral numeral), styleOfWord_eq,
    tableStyle?_of_numeral numeral, numeral.read?, Option.any_some, if_pos within]
  rfl

theorem styleOfPiece_of_classifies {kind : TokenKind} (classifies : Classifies text kind) :
    styleOfPiece text = styleOfToken kind := by
  cases classifies with
  | @numeral value numeral low high =>
    refine styleOfPiece_of_numeral numeral ?_
    rw [Decimal.Bounds.contains, Bool.and_eq_true, decide_eq_true_eq, decide_eq_true_eq]
    exact ⟨Int.le_trans (by decide) low, Int.le_trans high (by decide)⟩
  | reserved word listed =>
    have table : ∀ entry ∈ reservedWords, tableStyle? entry.1 = some (styleOfToken entry.2) := by
      decide
    rw [styleOfPiece_of_word word, table _ listed]
    rfl
  | identifier word free =>
    rw [styleOfPiece_of_word word, tableStyle?_of_word word free]
    rfl
  | sign listed =>
    have table : ∀ entry ∈ signs, styleOfPiece entry.1.toList = styleOfToken entry.2 := by decide
    simpa using table _ listed

/-! ## Tokens in their lines -/

theorem pieces_of_classifies {kind : TokenKind} (classifies : Classifies text kind) :
    pieces text = [text] := by
  cases classifies with
  | numeral numeral => exact pieces_of_plain (ne_nil_of_numeral numeral) (plain_of_numeral numeral)
  | reserved word | identifier word => exact pieces_of_plain (ne_nil_of_word word) (plain_of_word word)
  | sign listed =>
    have table : ∀ entry ∈ signs, pieces entry.1.toList = [entry.1.toList] := by decide +kernel
    simpa using table _ listed

theorem delimiter_of_parenthesis {kind : TokenKind} (classifies : Classifies text kind)
    (parenthesis : kind = .leftParen ∨ kind = .rightParen) : ∀ character ∈ text, isDelimiter character := by
  have table : ∀ entry ∈ signs, entry.2 = .leftParen ∨ entry.2 = .rightParen →
      entry.1.toList.all isDelimiter := by decide
  cases classifies with
  | numeral | identifier => simp at parenthesis
  | reserved word listed =>
    have table : ∀ entry ∈ reservedWords, ¬(entry.2 = .leftParen ∨ entry.2 = .rightParen) := by decide
    exact absurd parenthesis (table _ listed)
  | sign listed =>
    have all := table _ listed parenthesis
    rw [String.toList_ofList] at all
    exact List.all_eq_true.mp all

/-- A token between delimiters has a span of its own, and so has a parenthesis anywhere. -/
theorem spans_of_classifies {kind : TokenKind} (classifies : Classifies text kind)
    {start finish : List Char}
    (apart : Delimited start finish ∨ kind = .leftParen ∨ kind = .rightParen) :
    spans (start ++ text ++ finish) =
      spans start ++ ⟨String.ofList text, styleOfToken kind⟩ :: spans finish := by
  have own : spans text = [⟨String.ofList text, styleOfToken kind⟩] := by
    rw [spans, pieces_of_classifies classifies, List.map_singleton, styleOfPiece_of_classifies classifies]
  have left : ∀ last ∈ start.getLast?, ∀ first ∈ text.head?, isDelimiter last ∨ isDelimiter first := by
    intro last ends first starts
    rcases apart with delimited | parenthesis
    · exact .inl (delimited.left last ends)
    · exact .inr (delimiter_of_parenthesis classifies parenthesis first (List.mem_of_mem_head? starts))
  have right : ∀ last ∈ text.getLast?, ∀ first ∈ finish.head?, isDelimiter last ∨ isDelimiter first := by
    intro last ends first starts
    rcases apart with delimited | parenthesis
    · exact .inr (delimited.right first starts)
    · exact .inl (delimiter_of_parenthesis classifies parenthesis last (List.mem_of_mem_getLast? ends))
  have piece : text ∈ pieces text := by
    rw [pieces_of_classifies classifies]
    exact List.mem_singleton_self text
  have nonempty := ne_nil_of_mem_pieces piece
  rw [List.append_assoc, spans_append, spans_append right, own, List.singleton_append]
  rwa [List.head?_append_of_ne_nil text nonempty]

/-- A token and what stands before it and after it in its line, as the source pane has lines. -/
structure Stands (source : String) (lead : List Token) (token : Token) (start finish : List Char) :
    Prop where
  place : ∃ above after, source.toList = above ++ start ++ token.lexeme.toList ++ after ∧
    tokenize (String.ofList (above ++ start)) = .ok lead ∧ (above = [] ∨ ['\n'] <:+ above) ∧
    finish <+: after
  line : (SourcePane.sourceLines source)[token.line - 1]? =
    some (start ++ token.lexeme.toList ++ finish)
  number : 1 ≤ token.line

theorem exists_stands {source : String} {lead trail : List Token} {token : Token}
    (split : (Lexer.ofSource source).lexAll.tokens = lead ++ token :: trail) :
    ∃ start finish, Stands source lead token start finish := by
  obtain ⟨before, lexes, shows⟩ := SourcePane.showsToken split
  cases shows with
  | @intro above start finish after whole _ here ends _ kept number line _ =>
    rw [here] at whole
    rw [← String.ofList_toList (s := before), here] at lexes
    exact ⟨start, finish, ⟨above, after, whole, lexes, ends, kept⟩, line, number⟩

/-- Wherever a token stands between delimiters, or is one, the highlighter gives its text a span of
its own, in the style of its kind. -/
theorem tokens_highlighted {source : String} {lead trail : List Token} {token : Token}
    (lexed : (Lexer.ofSource source).lexAll.tokens = lead ++ token :: trail) :
    (∃ start finish, Stands source lead token start finish) ∧
    ∀ start finish, Delimited start finish ∨ token.kind = .leftParen ∨ token.kind = .rightParen →
      spans (start ++ token.lexeme.toList ++ finish) =
        spans start ++ ⟨token.lexeme, styleOfToken token.kind⟩ :: spans finish := by
  refine ⟨exists_stands lexed, fun start finish apart => ?_⟩
  obtain ⟨line, rest, tiles, -⟩ := (Lexer.ofSource source).tiles_lexAll
  rw [lexed] at tiles
  obtain ⟨-, classifies⟩ := tiles.forall_token token (by simp)
  have highlighted := spans_of_classifies classifies apart
  rwa [String.ofList_toList] at highlighted

theorem tokens_highlighted_numeral :
    (Lexer.ofSource "x\r\n(If\t-007\u00a0y").lexAll.tokens =
        [⟨.identifier, "x", 1⟩, ⟨.leftParen, "(", 2⟩, ⟨.conditional, "If", 2⟩] ++
          ⟨.number (-7), "-007", 2⟩ :: [] ∧
      Delimited "(If\t".toList "\u00a0y".toList ∧
      spans "(If\t-007\u00a0y".toList =
        spans "(If\t".toList ++ ⟨"-007", .colored Theme.number⟩ :: spans "\u00a0y".toList := by
  have lexed : (Lexer.ofSource "x\r\n(If\t-007\u00a0y").lexAll.tokens =
      [⟨.identifier, "x", 1⟩, ⟨.leftParen, "(", 2⟩, ⟨.conditional, "If", 2⟩] ++
        ⟨.number (-7), "-007", 2⟩ :: [] := by decide +kernel
  have delimited : Delimited "(If\t".toList "\u00a0y".toList := by
    constructor
    · rintro last ⟨⟩
      decide
    · rintro first ⟨⟩
      decide
  exact ⟨lexed, delimited, (tokens_highlighted lexed).2 _ _ (.inl delimited)⟩

end Highlight

end TypedLisp
