import TypedLisp.Decimal
import TypedLisp.Text.Characters
import TypedLisp.Viewer.Theme

/-! Coloring a line of source.

White space and parentheses delimit words and stand alone; a word is colored by
its own text, whether or not it is a lexeme.
-/

set_option autoImplicit false

namespace TypedLisp.Highlight

def isDelimiter (character : Char) : Bool :=
  Text.isWhitespace character || character == '(' || character == ')'

/-- Delimiters one by one and the words between them. -/
def pieces : List Char → List (List Char)
  | [] => []
  | first :: rest =>
      if isDelimiter first then [first] :: pieces rest
      else (first :: rest.takeWhile (!isDelimiter ·)) :: pieces (rest.dropWhile (!isDelimiter ·))
termination_by line => line.length
decreasing_by
  · simp
  · exact Nat.lt_succ_of_le (List.dropWhile_sublist _).length_le

theorem flatten_pieces (line : List Char) : (pieces line).flatten = line := by
  fun_induction pieces line with
  | case1 => rfl
  | case2 first rest delimiter ih => simp [ih]
  | case3 first rest word ih => simp [ih]

theorem ne_nil_of_mem_pieces {line piece : List Char} (member : piece ∈ pieces line) :
    piece ≠ [] := by
  fun_induction pieces line with
  | case1 => cases member
  | case2 first rest delimiter ih =>
    rcases List.mem_cons.mp member with rfl | member
    · simp
    · exact ih member
  | case3 first rest word ih =>
    rcases List.mem_cons.mp member with rfl | member
    · simp
    · exact ih member

def keywords : List String :=
  ["DEFINE", "FUN", "IF", "PRINT-NUM", "PRINT-BOOL"]

def operators : List String :=
  ["AND", "OR", "NOT", "MOD", "+", "-", "*", "/", ">", "<", "="]

/-- Numbers are what has a 64-bit form, a plus sign being allowed. -/
def styleOfWord (word : List Char) : Style :=
  let capitals := String.ofList (word.map Char.toUpper)
  if keywords.contains capitals then (Style.colored Theme.keyword).inBold
  else if operators.contains capitals then .colored Theme.operator
  else if ["#T", "#F"].contains capitals then .colored Theme.boolean
  else if (Decimal.read? word).any Decimal.signed64.contains then .colored Theme.number
  else .colored Theme.text

def styleOfPiece (piece : List Char) : Style :=
  match piece with
  | ['('] | [')'] => .colored Theme.bracket
  | first :: _ => if isDelimiter first then .plain else styleOfWord piece
  | [] => .plain

def spans (line : List Char) : List Span :=
  (pieces line).map fun piece => ⟨String.ofList piece, styleOfPiece piece⟩

end TypedLisp.Highlight
