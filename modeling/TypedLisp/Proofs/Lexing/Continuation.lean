import TypedLisp.Proofs.Lexing.Tiling

/-! Lexing a text that goes on after a blank, or that starts on another line.

No lexeme holds a blank, so a blank ends the lexeme before it and nothing after it
matters to what stands there. Where a text starts decides the lines of its tokens
and nothing else about them.
-/

set_option autoImplicit false

namespace TypedLisp

/-- A text that a blank keeps apart from what stands before it. -/
def StartsBlank (text : List Char) : Prop :=
  ∃ first rest, text = first :: rest ∧ isBlank first

theorem StartsBlank.append {text : List Char} (apart : StartsBlank text) (more : List Char) :
    StartsBlank (text ++ more) := by
  obtain ⟨first, rest, rfl, blank⟩ := apart
  exact ⟨first, rest ++ more, rfl, blank⟩

theorem IsLexeme.not_blank {text : List Char} (lexeme : IsLexeme text) :
    ∀ character ∈ text, isBlank character = false := by
  have blanks : [' ', '\t', '\r', '\n'].all fun character => !character.isDigit &&
      !isWordCharacter character && character != 't' && character != 'f' := by decide
  obtain ⟨first, rest, rfl, starts⟩ := lexeme.starts
  refine List.forall_mem_cons.mpr ⟨lexeme.not_isBlank, fun character member => ?_⟩
  rw [← Bool.not_eq_true]
  intro blank
  have other := List.all_eq_true.mp blanks character (isBlank_iff.mp blank)
  simp only [Bool.and_eq_true, Bool.not_eq_true', bne_iff_ne] at other
  obtain ⟨⟨⟨noDigit, noWord⟩, noT⟩, noF⟩ := other
  rcases starts with ⟨-, digits⟩ | ⟨-, characters⟩ | ⟨-, rfl | rfl⟩ | ⟨-, rfl⟩
  · exact absurd (digits character member) (by simp [noDigit])
  · exact absurd (characters character member) (by simp [noWord])
  · exact noT (List.mem_singleton.mp member)
  · exact noF (List.mem_singleton.mp member)
  · exact absurd member List.not_mem_nil

theorem count_newline_of_not_blank {text : List Char}
    (noBlank : ∀ character ∈ text, isBlank character = false) : text.count '\n' = 0 := by
  refine List.count_eq_zero.mpr fun member => ?_
  have newline := noBlank '\n' member
  simp [isBlank] at newline

/-- The part of a text that a fault is about. -/
def LexicalFault.text : LexicalFault → List Char
  | .illegal character => [character]
  | .overflow literal => literal.toList

theorem Stuck.split {text : List Char} {fault : LexicalFault} (stuck : Stuck text fault) :
    ∃ unread, text = fault.text ++ unread ∧ fault.text ≠ [] ∧
      ∀ character ∈ fault.text, isBlank character = false := by
  cases stuck with
  | illegal noBlank _ => exact ⟨_, rfl, List.cons_ne_nil _ _, List.forall_mem_singleton.mpr noBlank⟩
  | overflow longest _ _ =>
    obtain ⟨first, rest, rfl, -⟩ := longest.isLexeme.starts
    simp only [LexicalFault.text, String.toList_ofList]
    exact ⟨_, longest.split, List.cons_ne_nil _ _, longest.isLexeme.not_blank⟩

section
variable {text tail : List Char}

theorem IsLexeme.within {lexeme after : List Char} (isLexeme : IsLexeme lexeme)
    (apart : StartsBlank tail) (split : text ++ tail = lexeme ++ after) :
    ∃ inner, text = lexeme ++ inner ∧ after = inner ++ tail := by
  obtain ⟨blank, rest, rfl, isBlank⟩ := apart
  rcases List.append_eq_append_iff.mp split with ⟨beyond, rfl, same⟩ | ⟨inner, rfl, rfl⟩
  · cases beyond with
    | nil => exact ⟨[], by simp, by simpa using same.symm⟩
    | cons first beyond =>
      -- A lexeme that reaches beyond the text holds the blank.
      obtain ⟨rfl, -⟩ := List.cons.inj same
      have noBlank := isLexeme.not_blank blank (by simp)
      simp [isBlank] at noBlank
  · exact ⟨inner, rfl, rfl⟩

theorem Longest.append {lexeme after : List Char} (longest : Longest text lexeme after)
    (apart : StartsBlank tail) : Longest (text ++ tail) lexeme (after ++ tail) := by
  obtain ⟨rfl, isLexeme, maximal⟩ := longest
  refine ⟨List.append_assoc .., isLexeme, fun other rest split isLexeme' => ?_⟩
  obtain ⟨inner, split, -⟩ := isLexeme'.within apart split
  exact maximal other inner split isLexeme'

theorem NoLexeme.append (noLexeme : NoLexeme text) (apart : StartsBlank tail) :
    NoLexeme (text ++ tail) := by
  intro lexeme after split isLexeme
  obtain ⟨inner, split, -⟩ := isLexeme.within apart split
  exact noLexeme lexeme inner split isLexeme

theorem Stuck.append {fault : LexicalFault} (stuck : Stuck text fault) (apart : StartsBlank tail) :
    Stuck (text ++ tail) fault := by
  cases stuck with
  | illegal noBlank noLexeme => exact .illegal noBlank (noLexeme.append apart)
  | overflow longest numeral beyond => exact .overflow (longest.append apart) numeral beyond

theorem Fails.append {line : Nat} {error : LexicalError} (fails : Fails line text error)
    (apart : StartsBlank tail) : Fails line (text ++ tail) error := by
  cases fails with
  | intro allBlank stuck =>
    rw [List.append_assoc]
    exact .intro allBlank (stuck.append apart)

theorem Tiles.append {line line' : Nat} {rest : List Char} {tokens : List Token}
    (tiles : Tiles line text tokens line' rest) (apart : StartsBlank tail) :
    Tiles line (text ++ tail) tokens line' (rest ++ tail) := by
  induction tiles with
  | done => exact .done
  | token allBlank longest classifies _ ih =>
    rw [List.append_assoc]
    exact .token allBlank (longest.append apart) classifies ih

end

/-! ## Lines -/

section
variable {line line' : Nat} {text rest : List Char} {tokens : List Token}

theorem Tiles.line_add_count (tiles : Tiles line text tokens line' rest) :
    line' + rest.count '\n' = line + text.count '\n' := by
  induction tiles with
  | done => rfl
  | token allBlank longest _ _ ih =>
    have none := count_newline_of_not_blank longest.isLexeme.not_blank
    rw [ih, longest.split, List.count_append, List.count_append, none]
    omega

theorem Tiles.shift (tiles : Tiles line text tokens line' rest) (lines : Nat) :
    Tiles (line + lines) text (tokens.map (.shift lines)) (line' + lines) rest := by
  induction tiles with
  | done => exact .done
  | @token line line' blanks text lexeme after rest kind tokens allBlank longest classifies _ ih =>
    have moved : line + blanks.count '\n' + lines = line + lines + blanks.count '\n' := by omega
    rw [moved] at ih
    have tiles := Tiles.token allBlank longest classifies ih
    rw [← moved] at tiles
    exact tiles

theorem Fails.shift {error : LexicalError} (fails : Fails line text error) (lines : Nat) :
    Fails (line + lines) text (error.shift lines) := by
  cases fails with
  | @intro blanks _ fault allBlank stuck =>
    have moved : line + blanks.count '\n' + lines = line + lines + blanks.count '\n' := by omega
    have fails : Fails (line + lines) _ _ := .intro allBlank stuck
    rw [← moved] at fails
    exact fails

end

def Lexed.shift (lines : Nat) (lexed : Lexed) : Lexed :=
  ⟨lexed.tokens.map (.shift lines), lexed.failure.map (.shift lines),
    ⟨lexed.after.rest, lexed.after.line + lines⟩⟩

namespace Lexer

theorem lexAll_shift (text : List Char) (line lines : Nat) :
    (⟨text, line + lines⟩ : Lexer).lexAll = (⟨text, line⟩ : Lexer).lexAll.shift lines := by
  obtain ⟨tokens, line', rest, tiles, ends⟩ := exists_tiles ⟨text, line⟩
  rw [lexAll_of_tiles tiles, lexAll_of_tiles (tiles.shift lines)]
  rcases ends with blank | ⟨error, fails⟩
  · rw [lexAll_of_allBlank blank, lexAll_of_allBlank blank]
    simp [Lexed.shift, Nat.add_right_comm]
  · rw [lexAll_of_fails fails, lexAll_of_fails (fails.shift lines)]
    simp [Lexed.shift, finished, Located.shift]

theorem lexAll_congr {first second : Lexer} (same : first.pull = second.pull) :
    first.lexAll = second.lexAll := by
  cases pulled : second.pull with
  | ended after => rw [lexAll_of_ended pulled, lexAll_of_ended (same.trans pulled)]
  | failed error after => rw [lexAll_of_failed pulled, lexAll_of_failed (same.trans pulled)]
  | token token after => rw [lexAll_of_token pulled, lexAll_of_token (same.trans pulled)]

theorem lexAll_blank_append {blanks text : List Char} (allBlank : AllBlank blanks) (line : Nat) :
    (⟨blanks ++ text, line⟩ : Lexer).lexAll = (⟨text, line + blanks.count '\n'⟩ : Lexer).lexAll := by
  refine lexAll_congr ?_
  simp only [pull, skipBlanks_append line allBlank]

/-! ## Two texts with a blank between them -/

section
variable {first gap : List Char} (second : List Char) (apart : StartsBlank gap) (line : Nat)
include apart

/-- A text that fails is not read beyond its failure. -/
theorem lexAll_append_of_failure {error : LexicalError}
    (failed : (⟨first, line⟩ : Lexer).lexAll.failure = some error) :
    (⟨first ++ (gap ++ second), line⟩ : Lexer).lexAll = (⟨first, line⟩ : Lexer).lexAll := by
  have apart := apart.append second
  obtain ⟨tokens, line', rest, tiles, blank | ⟨other, fails⟩⟩ := exists_tiles ⟨first, line⟩
  · rw [lexAll_of_tiles tiles, lexAll_of_allBlank blank] at failed
    cases failed
  · rw [lexAll_of_tiles tiles, lexAll_of_fails fails, lexAll_of_tiles (tiles.append apart),
      lexAll_of_fails (fails.append apart)]

/-- A text that does not fail is lexed, then the other one where it starts. -/
theorem lexAll_append (blank : AllBlank gap)
    (intact : (⟨first, line⟩ : Lexer).lexAll.failure = none) :
    (⟨first ++ (gap ++ second), line⟩ : Lexer).lexAll =
      { (⟨second, line⟩ : Lexer).lexAll.shift ((first ++ gap).count '\n') with
        tokens := (⟨first, line⟩ : Lexer).lexAll.tokens ++
          ((⟨second, line⟩ : Lexer).lexAll.shift ((first ++ gap).count '\n')).tokens } := by
  have apart := apart.append second
  obtain ⟨tokens, line', rest, tiles, last | ⟨error, fails⟩⟩ := exists_tiles ⟨first, line⟩
  · have between : AllBlank (rest ++ gap) := List.forall_mem_append.mpr ⟨last, blank⟩
    have lines : line' + (rest ++ gap).count '\n' = line + (first ++ gap).count '\n' := by
      have passed := tiles.line_add_count
      rw [List.count_append, List.count_append]
      simp only at passed
      omega
    rw [lexAll_of_tiles tiles, lexAll_of_allBlank last, lexAll_of_tiles (tiles.append apart),
      ← List.append_assoc, lexAll_blank_append between, lines, lexAll_shift, List.append_nil]
  · rw [lexAll_of_tiles tiles, lexAll_of_fails fails] at intact
    cases intact

end

end Lexer

end TypedLisp
