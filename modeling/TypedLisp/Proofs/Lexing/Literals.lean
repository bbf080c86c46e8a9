import Mathlib.Data.Nat.Digits.Defs
import TypedLisp.Proofs.Lexing.Spacing

/-! Numerals of any length.

A numeral denotes the integer of its place values. Where the longest numeral starts
a token it is the lexeme, so the token is that integer if 32 bits hold it and a fault
with the whole numeral if not. Of the numerals of one integer one is canonical, the
one that is written in trees.
-/

set_option autoImplicit false

namespace TypedLisp

def magnitude (digits : List Char) : Nat :=
  Nat.ofDigits 10 (digits.map fun digit => digit.toNat - '0'.toNat).reverse

/-- The integer that a numeral denotes. -/
def literalValue : List Char → Int
  | '-' :: digits => -(magnitude digits : Int)
  | digits => magnitude digits

structure LongestLiteral (text literal after : List Char) : Prop where
  split : text = literal ++ after
  numeral : ∃ value, Numeral literal value
  maximal : ∀ other rest, text = other ++ rest → (∃ value, Numeral other value) →
    other.length ≤ literal.length

/-- A numeral without zeros before other digits, and not minus zero. -/
inductive Canonical : List Char → Prop
  | zero : Canonical ['0']
  | positive {first : Char} {rest : List Char} : first.isDigit → first ≠ '0' →
      (∀ digit ∈ rest, digit.isDigit) → Canonical (first :: rest)
  | negative {first : Char} {rest : List Char} : first.isDigit → first ≠ '0' →
      (∀ digit ∈ rest, digit.isDigit) → Canonical ('-' :: first :: rest)

/-! ## Values -/

theorem ofDigitChars_eq_magnitude (digits : List Char) :
    Nat.ofDigitChars 10 digits 0 = magnitude digits := by
  induction digits with
  | nil => rfl
  | cons digit digits ih =>
    have places : magnitude (digit :: digits) =
        magnitude digits + 10 ^ digits.length * (digit.toNat - '0'.toNat) := by
      rw [magnitude, List.map_cons, Nat.ofDigits_reverse_cons, List.length_map, magnitude]
    rw [Nat.ofDigitChars_cons, Nat.ofDigitChars_eq_ofDigitChars_zero, ih, places, Nat.mul_zero,
      Nat.zero_add, Nat.add_comm]

theorem literalValue_of_digits {digits : List Char} (all : ∀ digit ∈ digits, digit.isDigit) :
    literalValue digits = magnitude digits := by
  unfold literalValue
  split
  next => exact absurd (all '-' List.mem_cons_self) (by decide)
  next => rfl

theorem Numeral.value_eq {text : List Char} {value : Int} (numeral : Numeral text value) :
    value = literalValue text := by
  cases numeral with
  | positive _ digits => rw [literalValue_of_digits digits, ofDigitChars_eq_magnitude]
  | negative _ digits => rw [literalValue, ofDigitChars_eq_magnitude]

/-! ## Canonical numerals -/

theorem toDigits_of_isDigit {digit : Char} (isDigit : digit.isDigit) :
    Nat.toDigits 10 (digit.toNat - '0'.toNat) = [digit] := by
  obtain ⟨low, high⟩ := Char.isDigit_iff_toNat.mp isDigit
  have zero : '0'.toNat = 48 := rfl
  have nine : '9'.toNat = 57 := rfl
  rw [zero] at low ⊢
  rw [nine] at high
  have small : digit.toNat - 48 < 10 := by omega
  have same : (Nat.digitChar (digit.toNat - 48)).toNat = digit.toNat := by
    rw [Nat.toNat_digitChar_of_lt_ten small]
    omega
  rw [Nat.toDigits_of_lt_base small, Char.toNat_inj.mp same]

theorem toDigits_ofDigitChars {number : Nat} (positive : 0 < number) {digits : List Char}
    (all : ∀ digit ∈ digits, digit.isDigit) :
    Nat.toDigits 10 (Nat.ofDigitChars 10 digits number) = Nat.toDigits 10 number ++ digits := by
  induction digits generalizing number with
  | nil => simp
  | cons digit digits ih =>
    obtain ⟨isDigit, others⟩ := List.forall_mem_cons.mp all
    obtain ⟨-, high⟩ := Char.isDigit_iff_toNat.mp isDigit
    have nine : '9'.toNat = '0'.toNat + 9 := rfl
    have small : digit.toNat - '0'.toNat < 10 := by omega
    have later : 0 < 10 * number + (digit.toNat - '0'.toNat) := by omega
    rw [Nat.ofDigitChars_cons, ih later others, ← Nat.toDigits_append_toDigits (by decide) positive small,
      toDigits_of_isDigit isDigit, List.append_assoc, List.singleton_append]

theorem toDigits_of_leading {first : Char} {rest : List Char} (isDigit : first.isDigit)
    (leading : first ≠ '0') (digits : ∀ digit ∈ rest, digit.isDigit) :
    Nat.toDigits 10 (Nat.ofDigitChars 10 (first :: rest) 0) = first :: rest ∧
      Nat.ofDigitChars 10 (first :: rest) 0 ≠ 0 := by
  obtain ⟨low, -⟩ := Char.isDigit_iff_toNat.mp isDigit
  have other : first.toNat ≠ '0'.toNat := fun same => leading (Char.toNat_inj.mp same)
  have positive : 0 < first.toNat - '0'.toNat := by omega
  have written : Nat.toDigits 10 (Nat.ofDigitChars 10 (first :: rest) 0) = first :: rest := by
    rw [Nat.ofDigitChars_cons, Nat.mul_zero, Nat.zero_add, toDigits_ofDigitChars positive digits,
      toDigits_of_isDigit isDigit, List.singleton_append]
  refine ⟨written, fun none => leading ?_⟩
  rw [none] at written
  exact (List.cons.inj written).1.symm

theorem exists_leading {number : Nat} (positive : 0 < number) :
    ∃ first rest, Nat.toDigits 10 number = first :: rest ∧ first ≠ '0' := by
  induction number using Nat.strongRecOn with
  | ind number ih =>
    by_cases small : number < 10
    · refine ⟨_, [], Nat.toDigits_of_lt_base small, fun zero => ?_⟩
      have none := Nat.digitChar_eq_zero.mp zero
      omega
    · obtain ⟨first, rest, written, leading⟩ := ih (number / 10) (by omega) (by omega)
      rw [Nat.toDigits_of_base_le (by decide) (Nat.le_of_not_lt small), written]
      exact ⟨first, _, List.cons_append, leading⟩

theorem canonical_write (value : Int) : Canonical (Decimal.write value) := by
  have digits {number : Nat} {first : Char} {rest : List Char}
      (written : Nat.toDigits 10 number = first :: rest) :
      first.isDigit ∧ ∀ digit ∈ rest, digit.isDigit := by
    have all := (numeral_toDigits number).2
    rwa [written, List.forall_mem_cons] at all
  cases value with
  | ofNat number =>
    rw [Decimal.write]
    rcases Nat.eq_zero_or_pos number with rfl | positive
    · exact .zero
    · obtain ⟨first, rest, written, leading⟩ := exists_leading positive
      rw [written]
      exact .positive (digits written).1 leading (digits written).2
  | negSucc number =>
    obtain ⟨first, rest, written, leading⟩ := exists_leading (Nat.succ_pos number)
    rw [Decimal.write, written]
    exact .negative (digits written).1 leading (digits written).2

/-- An integer has one canonical numeral, and that is the one written. -/
theorem canonical_iff {text : List Char} {value : Int} :
    Canonical text ∧ literalValue text = value ↔ text = Decimal.write value := by
  constructor
  · rintro ⟨canonical, rfl⟩
    cases canonical with
    | zero => rfl
    | @positive first rest isDigit leading digits =>
      obtain ⟨written, -⟩ := toDigits_of_leading isDigit leading digits
      have all : ∀ digit ∈ first :: rest, digit.isDigit := List.forall_mem_cons.mpr ⟨isDigit, digits⟩
      rw [literalValue_of_digits all, ← ofDigitChars_eq_magnitude]
      exact written.symm
    | @negative first rest isDigit leading digits =>
      obtain ⟨written, positive⟩ := toDigits_of_leading isDigit leading digits
      obtain ⟨number, same⟩ := Nat.exists_eq_succ_of_ne_zero positive
      rw [literalValue, ← ofDigitChars_eq_magnitude, same]
      rw [same] at written
      exact congrArg ('-' :: ·) written.symm
  · rintro rfl
    exact ⟨canonical_write value, (numeral_write value).value_eq.symm⟩

/-! ## Literals where a token starts -/

theorem IsLexeme.of_starts_numeral {first : Char} {rest : List Char} (isLexeme : IsLexeme (first :: rest))
    (starts : first = '-' ∨ first.isDigit) : rest = [] ∨ ∃ value, Numeral (first :: rest) value := by
  by_cases alone : rest = []
  · exact .inl alone
  · rcases starts with rfl | digit
    · exact .inr ⟨_, .negative alone isLexeme.of_minus⟩
    · exact .inr ⟨_, .positive (List.cons_ne_nil _ _)
        (List.forall_mem_cons.mpr ⟨digit, isLexeme.of_digit digit⟩)⟩

theorem longestLiteral_iff {text literal after : List Char} :
    LongestLiteral text literal after ↔ Longest text literal after ∧ ∃ value, Numeral literal value := by
  constructor
  -- A longer lexeme that starts as a numeral does would be a numeral, but for a single sign.
  · rintro ⟨split, ⟨value, numeral⟩, maximal⟩
    refine ⟨⟨split, .numeral numeral, fun other rest split' isLexeme => ?_⟩, value, numeral⟩
    obtain ⟨first, digits, rfl, starts, -⟩ := numeral.starts
    obtain ⟨_, others, rfl, -⟩ := isLexeme.starts
    obtain ⟨rfl, -⟩ := List.cons.inj (split.symm.trans split')
    rcases isLexeme.of_starts_numeral starts with rfl | numeral'
    · simp
    · exact maximal _ rest split' numeral'
  · rintro ⟨longest, numeral⟩
    refine ⟨longest.split, numeral, fun other rest split numeral' => ?_⟩
    obtain ⟨_, numeral'⟩ := numeral'
    exact longest.maximal other rest split (.numeral numeral')

section
variable {source : String} {tokens : List Token} {line : Nat} {blanks text literal after : List Char}
  (tiles : Tiles 1 source.toList tokens line (blanks ++ text)) (blank : AllBlank blanks)
  (longest : LongestLiteral text literal after)
include tiles blank longest

theorem lexAll_of_literal (low : -2147483648 ≤ literalValue literal)
    (high : literalValue literal ≤ 2147483647) :
    ∃ later, (Lexer.ofSource source).lexAll.tokens = tokens ++
      ⟨.number (literalValue literal), String.ofList literal, line + blanks.count '\n'⟩ :: later := by
  obtain ⟨lexeme, value, numeral⟩ := longestLiteral_iff.mp longest
  obtain rfl := numeral.value_eq
  have pulled := Lexer.pull_of_longest line blank lexeme (.numeral numeral low high)
  have lexed := Lexer.lexAll_of_tiles tiles
  rw [Lexer.lexAll_of_token pulled] at lexed
  exact ⟨_, congrArg Lexed.tokens lexed⟩

theorem fails_of_literal
    (beyond : ¬ (-2147483648 ≤ literalValue literal ∧ literalValue literal ≤ 2147483647)) :
    tokenize source = .error ⟨.overflow (String.ofList literal), line + blanks.count '\n'⟩ ∧
      (Lexer.ofSource source).lexAll.tokens = tokens := by
  obtain ⟨lexeme, value, numeral⟩ := longestLiteral_iff.mp longest
  obtain rfl := numeral.value_eq
  have fails : Fails line (blanks ++ text) _ := .intro blank (.overflow lexeme numeral beyond)
  have lexed := Lexer.lexAll_of_tiles tiles
  rw [Lexer.lexAll_of_fails fails, List.append_nil] at lexed
  exact ⟨tokenize_of_fails tiles fails, congrArg Lexed.tokens lexed⟩

-- The tokens before the literal are the same in both cases; the next one is it, or there is none.
theorem literal_token_iff (value : Int) :
    tokens ++ [⟨.number value, String.ofList literal, line + blanks.count '\n'⟩] <+:
        (Lexer.ofSource source).lexAll.tokens ↔
      value = literalValue literal ∧ -2147483648 ≤ value ∧ value ≤ 2147483647 := by
  by_cases within : -2147483648 ≤ literalValue literal ∧ literalValue literal ≤ 2147483647
  · obtain ⟨later, lexed⟩ := lexAll_of_literal tiles blank longest within.1 within.2
    rw [lexed, List.prefix_append_right_inj, List.cons_prefix_cons]
    constructor
    · rintro ⟨same, -⟩
      obtain rfl := TokenKind.number.inj (congrArg Token.kind same)
      exact ⟨rfl, within⟩
    · rintro ⟨rfl, -⟩
      exact ⟨rfl, List.nil_prefix⟩
  · obtain ⟨-, lexed⟩ := fails_of_literal tiles blank longest within
    rw [lexed]
    constructor
    · intro taken
      have length := taken.length_le
      rw [List.length_append, List.length_singleton] at length
      omega
    · rintro ⟨rfl, range⟩
      exact absurd range within

theorem literal_overflow_iff :
    tokenize source = .error ⟨.overflow (String.ofList literal), line + blanks.count '\n'⟩ ∧
        (Lexer.ofSource source).lexAll.tokens = tokens ↔
      ¬ (-2147483648 ≤ literalValue literal ∧ literalValue literal ≤ 2147483647) := by
  refine ⟨?_, fails_of_literal tiles blank longest⟩
  rintro ⟨-, ended⟩ within
  obtain ⟨later, lexed⟩ := lexAll_of_literal tiles blank longest within.1 within.2
  simp [ended] at lexed

end

end TypedLisp
