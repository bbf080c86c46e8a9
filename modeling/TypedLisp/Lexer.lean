import TypedLisp.Lexeme

/-! Lexing a source text one token at a time.

A lexer holds the text that is left and the line it starts on. A pull skips the
blanks, of which newlines count lines, and takes the longest lexeme. The first
fault ends the text: later pulls find nothing.
-/

set_option autoImplicit false

namespace TypedLisp

def isBlank (character : Char) : Bool :=
  " \t\r\n".toList.contains character

structure Lexer where
  rest : List Char
  line : Nat
  deriving Repr, DecidableEq

/-- What one pull gives, and the lexer after it. -/
inductive Pull where
  | ended (after : Lexer)
  | failed (error : LexicalError) (after : Lexer)
  | token (token : Token) (after : Lexer)
  deriving Repr, DecidableEq

namespace Lexer

def ofSource (source : String) : Lexer :=
  ⟨source.toList, 1⟩

def skipBlanks (lexer : Lexer) : Lexer where
  rest := lexer.rest.dropWhile isBlank
  line := lexer.line + (lexer.rest.takeWhile isBlank).count '\n'

def finished (line : Nat) : Lexer :=
  ⟨[], line⟩

def pull (lexer : Lexer) : Pull :=
  let ready := lexer.skipBlanks
  match ready.rest with
  | [] => .ended ready
  | first :: _ =>
      match longestLexeme? ready.rest with
      | none => .failed ⟨.illegal first, ready.line⟩ (finished ready.line)
      | some (lexeme, after) =>
          match TokenKind.ofLexeme lexeme with
          | .error fault => .failed ⟨fault, ready.line⟩ (finished ready.line)
          | .ok kind => .token ⟨kind, String.ofList lexeme, ready.line⟩ ⟨after, ready.line⟩

theorem length_skipBlanks (lexer : Lexer) :
    lexer.skipBlanks.rest.length ≤ lexer.rest.length :=
  (List.dropWhile_sublist _).length_le

theorem length_lt_of_pull {lexer after : Lexer} {token : Token}
    (pulled : lexer.pull = .token token after) : after.rest.length < lexer.rest.length := by
  unfold pull at pulled
  dsimp only at pulled
  split at pulled
  · cases pulled
  · split at pulled
    · cases pulled
    · next lexeme remaining found =>
      split at pulled
      · cases pulled
      · cases pulled
        exact Nat.lt_of_lt_of_le (length_lt_of_longestLexeme? found) lexer.length_skipBlanks

theorem rest_of_failed {lexer after : Lexer} {error : LexicalError}
    (pulled : lexer.pull = .failed error after) : after = finished error.line := by
  unfold pull at pulled
  dsimp only at pulled
  split at pulled
  · cases pulled
  · split at pulled
    · cases pulled; rfl
    · split at pulled
      · cases pulled; rfl
      · cases pulled

theorem rest_of_ended {lexer after : Lexer} (pulled : lexer.pull = .ended after) :
    after.rest = [] := by
  unfold pull at pulled
  dsimp only at pulled
  split at pulled
  · next empty => cases pulled; exact empty
  · split at pulled
    · cases pulled
    · split at pulled <;> cases pulled

@[simp] theorem pull_finished (line : Nat) : (finished line).pull = .ended (finished line) := rfl

end Lexer

/-- All that a lexer has left: its tokens, the fault that ends them if one does,
and the lexer afterwards. -/
structure Lexed where
  tokens : List Token
  failure : Option LexicalError
  after : Lexer
  deriving Repr, DecidableEq

namespace Lexer

def lexAll (lexer : Lexer) : Lexed :=
  match _ : lexer.pull with
  | .ended after => ⟨[], none, after⟩
  | .failed error after => ⟨[], some error, after⟩
  | .token token after =>
      let later := after.lexAll
      ⟨token :: later.tokens, later.failure, later.after⟩
termination_by lexer.rest.length
decreasing_by exact length_lt_of_pull ‹_›

theorem lexAll_of_ended {lexer after : Lexer} (pulled : lexer.pull = .ended after) :
    lexer.lexAll = ⟨[], none, after⟩ := by
  rw [lexAll]
  split <;> simp_all

theorem lexAll_of_failed {lexer after : Lexer} {error : LexicalError}
    (pulled : lexer.pull = .failed error after) : lexer.lexAll = ⟨[], some error, after⟩ := by
  rw [lexAll]
  split <;> simp_all

theorem lexAll_of_token {lexer after : Lexer} {token : Token}
    (pulled : lexer.pull = .token token after) :
    lexer.lexAll =
      ⟨token :: after.lexAll.tokens, after.lexAll.failure, after.lexAll.after⟩ := by
  rw [lexAll]
  split <;> simp_all

end Lexer

def Lexed.result (lexed : Lexed) : Except LexicalError (List Token) :=
  match lexed.failure with
  | none => .ok lexed.tokens
  | some error => .error error

def tokenize (source : String) : Except LexicalError (List Token) :=
  (Lexer.ofSource source).lexAll.result

end TypedLisp
