import Mathlib.Data.List.Forall2
import TypedLisp.Proofs.Lexing.Spacing
import TypedLisp.Proofs.Reading.Sequencing

/-! Texts put together from other texts.

Where a blank stands between any two of them, the tokens of the whole are those that
each text has alone, one text after another, but for their lines.
-/

set_option autoImplicit false

namespace TypedLisp

/-- A text has some tokens, on whatever lines it has them. -/
def HasTokens (text : String) (tokens : List Token) : Prop :=
  ∃ lined, tokenize text = .ok lined ∧ lined.map (.mapLine fun _ => 0) = tokens

namespace HasTokens

variable {first second text : String} {tokens others : List Token}

theorem unique (has : HasTokens text tokens) (has' : HasTokens text others) : tokens = others := by
  obtain ⟨lined, lexes, rfl⟩ := has
  obtain ⟨lined', lexes', rfl⟩ := has'
  rw [Except.ok.inj (lexes.symm.trans lexes')]

theorem lexeme {token : Token} (spelled : token.IsSpelled) : HasTokens token.lexeme [token] := by
  have spells : Spells [token] [token.lexeme] := .cons spelled .nil
  have spaced := spaced_intercalate [token.lexeme]
  rw [String.intercalate_singleton] at spaced
  exact tokenize_of_spaced spaced spells

theorem append {gap : String} (apart : StartsBlank gap.toList) (blank : AllBlank gap.toList)
    (has : HasTokens first tokens) (has' : HasTokens second others) :
    HasTokens (first ++ gap ++ second) (tokens ++ others) := by
  obtain ⟨lined, lexes, rfl⟩ := has
  obtain ⟨lined', lexes', rfl⟩ := has'
  obtain ⟨intact, rfl⟩ := tokenize_eq_ok_iff.mp lexes
  obtain ⟨intact', rfl⟩ := tokenize_eq_ok_iff.mp lexes'
  have lexed := Lexer.lexAll_append second.toList apart 1 blank intact
  rw [← ofSource_append] at lexed
  refine ⟨_, tokenize_eq_ok_iff.mpr ⟨?_, rfl⟩, ?_⟩
  · rw [lexed]
    exact Option.map_eq_none_iff.mpr intact'
  · rw [lexed]
    simp only [Lexed.shift, List.map_append, List.map_map]
    rfl

theorem intercalate {texts : List String} {parts : List (List Token)}
    (each : List.Forall₂ HasTokens texts parts) : HasTokens (" ".intercalate texts) parts.flatten := by
  have apart : StartsBlank " ".toList := ⟨' ', [], rfl, rfl⟩
  have blank : AllBlank " ".toList := List.forall_mem_singleton.mpr rfl
  induction each with
  | nil => exact tokenize_of_spaced (spaced_intercalate []) .nil
  | @cons first part texts parts has each joined =>
    cases each with
    | nil => simpa using has
    | cons =>
      rw [String.intercalate_cons_cons, List.flatten_cons]
      exact has.append apart blank joined

end HasTokens

end TypedLisp
