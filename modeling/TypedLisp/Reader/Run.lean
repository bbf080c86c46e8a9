import TypedLisp.Lexer
import TypedLisp.Reader.Step

/-! Reading a program out of a lexer.

A reading pulls tokens only as the reader takes them, and stops at the first fault
of either. It keeps the tokens pulled and the lexer it leaves behind, from which
another reading may start.
-/

set_option autoImplicit false

namespace TypedLisp

structure Reading where
  result : Except SourceError Node
  pulled : List Token
  after : Lexer
  deriving Repr

namespace Reader

def feed (reader : Reader) (tokens : List Token) : Except SourceError Reader :=
  tokens.foldlM step reader

theorem feed_append (reader : Reader) (first second : List Token) :
    reader.feed (first ++ second) = (reader.feed first).bind (·.feed second) :=
  List.foldlM_append

def run (reader : Reader) (lexer : Lexer) : Reading :=
  match _ : lexer.pull with
  | .ended after => ⟨reader.finish after.line, [], after⟩
  | .failed error after => ⟨.error (error.map .lexical), [], after⟩
  | .token token after =>
      match reader.step token with
      | .error error => ⟨.error error, [token], after⟩
      | .ok next =>
          let reading := next.run after
          { reading with pulled := token :: reading.pulled }
termination_by lexer.rest.length
decreasing_by exact Lexer.length_lt_of_pull ‹_›

theorem run_of_ended {lexer after : Lexer} (reader : Reader) (pulled : lexer.pull = .ended after) :
    reader.run lexer = ⟨reader.finish after.line, [], after⟩ := by
  rw [run]
  split <;> simp_all

theorem run_of_failed {lexer after : Lexer} {error : LexicalError} (reader : Reader)
    (pulled : lexer.pull = .failed error after) :
    reader.run lexer = ⟨.error (error.map .lexical), [], after⟩ := by
  rw [run]
  split <;> simp_all

theorem run_of_refused {lexer after : Lexer} {token : Token} {error : SourceError}
    {reader : Reader} (pulled : lexer.pull = .token token after)
    (refused : reader.step token = .error error) :
    reader.run lexer = ⟨.error error, [token], after⟩ := by
  rw [run]
  split <;> simp_all

theorem run_of_taken {lexer after : Lexer} {token : Token} {reader next : Reader}
    (pulled : lexer.pull = .token token after) (taken : reader.step token = .ok next) :
    reader.run lexer = { next.run after with pulled := token :: (next.run after).pulled } := by
  rw [run]
  split <;> simp_all

end Reader

/-- Reads one program from where a lexer stands. -/
def Lexer.read (lexer : Lexer) : Reading :=
  Reader.start.run lexer

/-- The results of reading over and over, each time from where the last one stopped. -/
def Lexer.readTimes : Nat → Lexer → List (Except SourceError Node)
  | 0, _ => []
  | times + 1, lexer =>
      let reading := lexer.read
      reading.result :: readTimes times reading.after

def parse (source : String) : Except SourceError Node :=
  (Lexer.ofSource source).read.result

end TypedLisp
