import TypedLisp.Lexeme

/-! The patterns of lexemes, and the longest match.

A lexeme is a numeral, a word, a boolean or a sign. The first character tells them
apart, but for a minus, which starts numerals and is a sign; so the longest match
extends by one class of characters as far as these go.
-/

set_option autoImplicit false

namespace TypedLisp

/-- `-?[0-9]+`, and the integer it denotes. -/
inductive Numeral : List Char → Int → Prop
  | positive {digits : List Char} : digits ≠ [] → (∀ digit ∈ digits, digit.isDigit) →
      Numeral digits (Nat.ofDigitChars 10 digits 0)
  | negative {digits : List Char} : digits ≠ [] → (∀ digit ∈ digits, digit.isDigit) →
      Numeral ('-' :: digits) (-(Nat.ofDigitChars 10 digits 0 : Int))

/-- `[A-Za-z][A-Za-z0-9-]*` -/
inductive Word : List Char → Prop
  | intro {first : Char} {rest : List Char} : first.isAlpha →
      (∀ character ∈ rest, character.isAlphanum ∨ character = '-') → Word (first :: rest)

inductive IsLexeme : List Char → Prop
  | numeral {text : List Char} {value : Int} : Numeral text value → IsLexeme text
  | word {text : List Char} : Word text → IsLexeme text
  | trueLiteral : IsLexeme ['#', 't']
  | falseLiteral : IsLexeme ['#', 'f']
  | sign {character : Char} : character ∈ ['+', '-', '*', '/', '>', '<', '=', '(', ')'] →
      IsLexeme [character]

/-- A text starts with a lexeme and with no longer one. -/
structure Longest (text lexeme after : List Char) : Prop where
  split : text = lexeme ++ after
  isLexeme : IsLexeme lexeme
  maximal : ∀ other rest, text = other ++ rest → IsLexeme other → other.length ≤ lexeme.length

def NoLexeme (text : List Char) : Prop :=
  ∀ lexeme after, text = lexeme ++ after → ¬ IsLexeme lexeme

/-! ## Characters -/

theorem isAlpha_iff {character : Char} :
    character.isAlpha ↔ character.isUpper ∨ character.isLower :=
  Bool.or_eq_true_iff

theorem isUpper_iff {character : Char} :
    character.isUpper ↔ 'A'.val ≤ character.val ∧ character.val ≤ 'Z'.val :=
  decide_eq_true_iff

theorem isLower_iff {character : Char} :
    character.isLower ↔ 'a'.val ≤ character.val ∧ character.val ≤ 'z'.val :=
  Bool.and_eq_true_iff.trans (and_congr decide_eq_true_iff decide_eq_true_iff)

theorem isAlpha_eq_false_of_isDigit {character : Char} (digit : character.isDigit) :
    character.isAlpha = false := by
  rw [← Bool.not_eq_true, isAlpha_iff, isUpper_iff, isLower_iff]
  simp only [Char.isDigit, Bool.and_eq_true, decide_eq_true_eq, ge_iff_le, UInt32.le_iff_toNat_le]
    at digit ⊢
  simp at digit ⊢
  omega

theorem isWordCharacter_iff {character : Char} :
    isWordCharacter character ↔ character.isAlphanum ∨ character = '-' := by
  simp [isWordCharacter]

theorem isSign_iff {character : Char} :
    isSign character ↔ character ∈ ['+', '-', '*', '/', '>', '<', '=', '(', ')'] := by
  simp [isSign]

theorem length_le_takeWhile {p : Char → Bool} {start rest text : List Char}
    (split : text = start ++ rest) (within : ∀ character ∈ start, p character) :
    start.length ≤ (text.takeWhile p).length := by
  rw [split, List.takeWhile_append_of_pos within, List.length_append]
  omega

/-! ## The longest match -/

theorem Numeral.starts {text : List Char} {value : Int} (numeral : Numeral text value) :
    ∃ first rest, text = first :: rest ∧ (first = '-' ∨ first.isDigit) ∧
      ∀ digit ∈ rest, digit.isDigit := by
  cases numeral with
  | positive nonempty digits =>
    cases text with
    | nil => exact absurd rfl nonempty
    | cons first rest =>
      rw [List.forall_mem_cons] at digits
      exact ⟨first, rest, rfl, .inr digits.1, digits.2⟩
  | negative _ digits => exact ⟨'-', _, rfl, .inl rfl, digits⟩

theorem IsLexeme.starts {text : List Char} (lexeme : IsLexeme text) :
    ∃ first rest, text = first :: rest ∧
      (((first = '-' ∨ first.isDigit) ∧ ∀ digit ∈ rest, digit.isDigit) ∨
        (first.isAlpha ∧ ∀ character ∈ rest, isWordCharacter character) ∨
        (first = '#' ∧ (rest = ['t'] ∨ rest = ['f'])) ∨
        (isSign first ∧ rest = [])) := by
  cases lexeme with
  | numeral numeral =>
    obtain ⟨first, rest, rfl, starts⟩ := numeral.starts
    exact ⟨first, rest, rfl, .inl starts⟩
  | word word =>
    cases word with
    | intro alpha rest =>
      exact ⟨_, _, rfl, .inr (.inl ⟨alpha, by simpa [isWordCharacter_iff] using rest⟩)⟩
  | trueLiteral => exact ⟨'#', ['t'], rfl, .inr (.inr (.inl ⟨rfl, .inl rfl⟩))⟩
  | falseLiteral => exact ⟨'#', ['f'], rfl, .inr (.inr (.inl ⟨rfl, .inr rfl⟩))⟩
  | sign member => exact ⟨_, [], rfl, .inr (.inr (.inr ⟨isSign_iff.mpr member, rfl⟩))⟩

/-- A first character and the class after it are the longest lexeme if every lexeme is as such. -/
theorem longest_takeWhile {p : Char → Bool} {first : Char} {rest : List Char}
    (isLexeme : IsLexeme (first :: rest.takeWhile p))
    (only : ∀ other, IsLexeme (first :: other) → ∀ character ∈ other, p character) :
    Longest (first :: rest) (first :: rest.takeWhile p) (rest.dropWhile p) := by
  refine ⟨by simp, isLexeme, fun other after split lexeme => ?_⟩
  obtain ⟨_, others, rfl, -⟩ := lexeme.starts
  obtain ⟨rfl, later⟩ := List.cons.inj split
  have bound := length_le_takeWhile later (only others lexeme)
  simpa using bound

theorem IsLexeme.of_digit {first : Char} {rest : List Char} (digit : first.isDigit)
    (lexeme : IsLexeme (first :: rest)) : ∀ character ∈ rest, character.isDigit := by
  obtain ⟨_, _, same, starts⟩ := lexeme.starts
  cases same
  rcases starts with ⟨-, digits⟩ | ⟨alpha, -⟩ | ⟨rfl, -⟩ | ⟨-, rfl⟩
  · exact digits
  · simp [isAlpha_eq_false_of_isDigit digit] at alpha
  · exact absurd digit (by decide)
  · exact List.forall_mem_nil _

theorem IsLexeme.of_minus {rest : List Char} (lexeme : IsLexeme ('-' :: rest)) :
    ∀ character ∈ rest, character.isDigit := by
  obtain ⟨_, _, same, starts⟩ := lexeme.starts
  cases same
  rcases starts with ⟨-, digits⟩ | ⟨alpha, -⟩ | ⟨hash, -⟩ | ⟨-, rfl⟩
  · exact digits
  · exact absurd alpha (by decide)
  · exact absurd hash (by decide)
  · exact List.forall_mem_nil _

theorem IsLexeme.of_alpha {first : Char} {rest : List Char} (alpha : first.isAlpha)
    (lexeme : IsLexeme (first :: rest)) : ∀ character ∈ rest, isWordCharacter character := by
  obtain ⟨_, _, same, starts⟩ := lexeme.starts
  cases same
  rcases starts with ⟨rfl | digit, -⟩ | ⟨-, characters⟩ | ⟨rfl, -⟩ | ⟨-, rfl⟩
  · exact absurd alpha (by decide)
  · simp [isAlpha_eq_false_of_isDigit digit] at alpha
  · exact characters
  · exact absurd alpha (by decide)
  · exact List.forall_mem_nil _

theorem IsLexeme.of_hash {rest : List Char} (lexeme : IsLexeme ('#' :: rest)) :
    rest = ['t'] ∨ rest = ['f'] := by
  obtain ⟨_, _, same, starts⟩ := lexeme.starts
  cases same
  rcases starts with ⟨minus | digit, -⟩ | ⟨alpha, -⟩ | ⟨-, rest⟩ | ⟨sign, -⟩
  · exact absurd minus (by decide)
  · exact absurd digit (by decide)
  · exact absurd alpha (by decide)
  · exact rest
  · exact absurd sign (by decide)

theorem isLexeme_digits {first : Char} {rest : List Char} (digit : first.isDigit) :
    IsLexeme (first :: rest.takeWhile Char.isDigit) := by
  refine .numeral (.positive (List.cons_ne_nil _ _) ?_)
  exact List.forall_mem_cons.mpr ⟨digit, List.all_eq_true.mp List.all_takeWhile⟩

theorem isLexeme_minus (rest : List Char) : IsLexeme ('-' :: rest.takeWhile Char.isDigit) := by
  by_cases alone : rest.takeWhile Char.isDigit = []
  · rw [alone]
    exact .sign (by simp)
  · exact .numeral (.negative alone (List.all_eq_true.mp List.all_takeWhile))

theorem isLexeme_word {first : Char} {rest : List Char} (alpha : first.isAlpha) :
    IsLexeme (first :: rest.takeWhile isWordCharacter) :=
  .word (.intro alpha fun character member =>
    isWordCharacter_iff.mp (List.all_eq_true.mp List.all_takeWhile character member))

theorem longest_hash {second : Char} {rest : List Char} (isLexeme : IsLexeme ['#', second]) :
    Longest ('#' :: second :: rest) ['#', second] rest := by
  refine ⟨rfl, isLexeme, fun other after split lexeme => ?_⟩
  obtain ⟨_, others, rfl, -⟩ := lexeme.starts
  obtain ⟨rfl, -⟩ := List.cons.inj split
  rcases lexeme.of_hash with rfl | rfl <;> simp

/-- What the scanner finds is the longest lexeme, and it finds one if there is one. -/
theorem longestLexeme?_spec (text : List Char) :
    (∃ lexeme after, longestLexeme? text = some (lexeme, after) ∧ Longest text lexeme after) ∨
      (longestLexeme? text = none ∧ NoLexeme text) := by
  unfold longestLexeme?
  split
  next =>
    refine .inr ⟨rfl, fun lexeme after split isLexeme => ?_⟩
    obtain ⟨_, _, rfl, -⟩ := isLexeme.starts
    cases split
  next rest =>
    exact .inl ⟨_, _, rfl, longest_takeWhile (isLexeme_minus rest) fun _ lexeme => lexeme.of_minus⟩
  next rest => exact .inl ⟨_, _, rfl, longest_hash .trueLiteral⟩
  next rest => exact .inl ⟨_, _, rfl, longest_hash .falseLiteral⟩
  next first rest noMinus noTrue noFalse =>
    split
    next digit =>
      exact .inl ⟨_, _, rfl, longest_takeWhile (isLexeme_digits digit) fun _ lexeme =>
        lexeme.of_digit digit⟩
    next noDigit =>
      split
      next alpha =>
        exact .inl ⟨_, _, rfl, longest_takeWhile (isLexeme_word alpha) fun _ lexeme =>
          lexeme.of_alpha alpha⟩
      next noAlpha =>
        -- What is left starts with a sign other than a minus, or with no lexeme at all.
        have only : ∀ lexeme after, first :: rest = lexeme ++ after → IsLexeme lexeme →
            isSign first ∧ lexeme = [first] := by
          intro lexeme after split isLexeme
          obtain ⟨_, others, rfl, starts⟩ := isLexeme.starts
          obtain ⟨rfl, later⟩ := List.cons.inj split
          rcases starts with ⟨minus | digit, -⟩ | ⟨alpha, -⟩ | ⟨hash, rfl | rfl⟩ | ⟨sign, rfl⟩
          · exact absurd minus noMinus
          · exact absurd digit noDigit
          · exact absurd alpha noAlpha
          · exact absurd later (noTrue after hash)
          · exact absurd later (noFalse after hash)
          · exact ⟨sign, rfl⟩
        split
        next sign =>
          refine .inl ⟨_, _, rfl, rfl, .sign (isSign_iff.mp sign), fun lexeme after split isLexeme => ?_⟩
          have alone := (only lexeme after split isLexeme).2
          exact Nat.le_of_eq (congrArg List.length alone)
        next noSign =>
          exact .inr ⟨rfl, fun lexeme after split isLexeme =>
            noSign (only lexeme after split isLexeme).1⟩

theorem Longest.unique {text lexeme lexeme' after after' : List Char}
    (longest : Longest text lexeme after) (longest' : Longest text lexeme' after') :
    lexeme = lexeme' ∧ after = after' := by
  have same : lexeme ++ after = lexeme' ++ after' := longest.split.symm.trans longest'.split
  have short := longest.maximal lexeme' after' longest'.split longest'.isLexeme
  have long := longest'.maximal lexeme after longest.split longest.isLexeme
  exact List.append_inj same (by omega)

theorem longestLexeme?_eq_some_iff {text lexeme after : List Char} :
    longestLexeme? text = some (lexeme, after) ↔ Longest text lexeme after := by
  rcases longestLexeme?_spec text with ⟨lexeme', after', found, longest'⟩ | ⟨none, noLexeme⟩
  · rw [found]
    constructor
    · intro same
      cases same
      exact longest'
    · intro longest
      obtain ⟨rfl, rfl⟩ := longest.unique longest'
      rfl
  · rw [none]
    constructor
    · intro same
      cases same
    · intro longest
      exact absurd longest.isLexeme (noLexeme lexeme after longest.split)

theorem longestLexeme?_eq_none_iff {text : List Char} :
    longestLexeme? text = none ↔ NoLexeme text := by
  rcases longestLexeme?_spec text with ⟨lexeme, after, found, longest⟩ | ⟨none, noLexeme⟩
  · rw [found]
    simp only [reduceCtorEq, false_iff]
    exact fun noLexeme => noLexeme lexeme after longest.split longest.isLexeme
  · simp [none, noLexeme]

end TypedLisp
