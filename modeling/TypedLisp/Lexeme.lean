import TypedLisp.Decimal
import TypedLisp.Token

/-! Lexemes, the texts that tokens are written as.

A lexeme is the longest match, at its position, of a number `-?[0-9]+`, a word
`[A-Za-z][A-Za-z0-9-]*`, `#t`, `#f` or one of the signs. Its text alone decides
the kind of token: words are reserved in any mix of letter cases, and a number
must have a 32-bit form.
-/

set_option autoImplicit false

namespace TypedLisp

def signs : List (String × TokenKind) :=
  [("+", .operator .add), ("-", .operator .sub), ("*", .operator .mul), ("/", .operator .div),
   (">", .operator .greater), ("<", .operator .smaller), ("=", .operator .equal),
   ("(", .leftParen), (")", .rightParen), ("#t", .boolean true), ("#f", .boolean false)]

def reservedWords : List (String × TokenKind) :=
  [("MOD", .operator .mod), ("DEFINE", .define), ("FUN", .function), ("IF", .conditional),
   ("AND", .operator .and), ("OR", .operator .or), ("NOT", .operator .not),
   ("PRINT-NUM", .printNum), ("PRINT-BOOL", .printBool)]

def capitals (text : List Char) : String :=
  String.ofList (text.map Char.toUpper)

def TokenKind.ofWord (text : List Char) : TokenKind :=
  match signs.lookup (String.ofList text) with
  | some kind => kind
  | none => (reservedWords.lookup (capitals text)).getD .identifier

/-- The kind of token that a lexeme is, or the fault of a number out of range. -/
def TokenKind.ofLexeme (text : List Char) : Except LexicalFault TokenKind :=
  match Decimal.read? text with
  | none => .ok (.ofWord text)
  | some value =>
      if Decimal.signed32.contains value then .ok (.number value)
      else .error (.overflow (String.ofList text))

def isWordCharacter (character : Char) : Bool :=
  character.isAlphanum || character == '-'

def isSign (character : Char) : Bool :=
  "+-*/><=()".toList.contains character

/-- The longest lexeme that a text starts with, and the text after it. -/
def longestLexeme? : List Char → Option (List Char × List Char)
  | [] => none
  | '-' :: rest => some ('-' :: rest.takeWhile Char.isDigit, rest.dropWhile Char.isDigit)
  | '#' :: 't' :: rest => some (['#', 't'], rest)
  | '#' :: 'f' :: rest => some (['#', 'f'], rest)
  | first :: rest =>
      if first.isDigit then
        some (first :: rest.takeWhile Char.isDigit, rest.dropWhile Char.isDigit)
      else if first.isAlpha then
        some (first :: rest.takeWhile isWordCharacter, rest.dropWhile isWordCharacter)
      else if isSign first then some ([first], rest)
      else none

theorem longestLexeme?_split {text lexeme after : List Char}
    (found : longestLexeme? text = some (lexeme, after)) :
    lexeme ≠ [] ∧ lexeme ++ after = text := by
  unfold longestLexeme? at found
  split at found
  · cases found
  · cases found; simp
  · cases found; simp
  · cases found; simp
  · split at found
    · cases found; simp
    · split at found
      · cases found; simp
      · split at found
        · cases found; simp
        · cases found

theorem longestLexeme?_append {text lexeme after : List Char}
    (found : longestLexeme? text = some (lexeme, after)) : lexeme ++ after = text :=
  (longestLexeme?_split found).2

theorem length_lt_of_longestLexeme? {text lexeme after : List Char}
    (found : longestLexeme? text = some (lexeme, after)) : after.length < text.length := by
  have whole := congrArg List.length (longestLexeme?_append found)
  have positive := List.length_pos_iff.mpr (longestLexeme?_split found).1
  rw [List.length_append] at whole
  omega

end TypedLisp
