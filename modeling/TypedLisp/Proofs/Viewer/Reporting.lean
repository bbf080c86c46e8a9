import TypedLisp.Proofs.Places.Tokens
import TypedLisp.Proofs.Reading.Stopping
import TypedLisp.Proofs.Text.Lines
import TypedLisp.Proofs.Viewer.Windows
import TypedLisp.Proofs.Viewer.Words

/-! Where the source pane shows what the lexer and the parser report.

The lexer counts newlines, and the pane splits the text into lines, without the
carriage returns before newlines and without an empty line at the end. As no lexeme
holds a blank, both agree on the line of whatever is not blank. Only the end of a
text may be on a line that the pane does not have.
-/

set_option autoImplicit false

namespace TypedLisp

namespace SourcePane

def Numbered (number : Nat) (text : List Char) (line : Line) : Prop :=
  (lineText line.spans).toList =
    List.replicate (4 - (toString number).length) ' ' ++ (toString number).toList ++ ' ' :: text

theorem numbered_lineSpans (text : List Char) (number : Nat) :
    Numbered number text ⟨lineSpans text number, none⟩ := by
  have digits : (toString number).toList = Nat.toDigits 10 number := by
    rw [Nat.toString_eq_repr, Nat.repr_eq_ofList_toDigits, String.toList_ofList]
  have spelled : (lineText (Highlight.spans text)).toList = text := by
    rw [Highlight.lineText_spans, String.toList_ofList]
  rw [lineText, String.toList_join, List.flatMap_map] at spelled
  rw [Numbered, ← String.length_toList, digits, lineSpans, lineText, String.toList_join,
    List.flatMap_map, List.flatMap_cons, spelled, lineNumber, String.toList_ofList,
    List.append_assoc _ [' ']]
  rfl

/-- Whatever the pane is scrolled to, the line of a number is handed over with its number wherever it
is in the window, and with a place on the screen if the pane has room for a line. And the pane can be
scrolled to it. -/
structure Displays (source : String) (number : Nat) (text : List Char) : Prop where
  line : ∀ scroll focused height place, place < Pane.visibleLines height →
    offsetAfter source scroll height + place + 1 = number →
    ∃ line, (pane source scroll focused height).lines[place]? = some line ∧ Numbered number text line
  room : ∀ scroll focused height, 3 ≤ height →
    (pane source scroll focused height).lines.length ≤ height - 2
  scroll : ∀ height, ∃ scroll place, place < Pane.visibleLines height ∧
    offsetAfter source scroll height + place + 1 = number

/-- What stands in a source behind some of it is within the line of a number, and seen there. -/
inductive Shows (source : String) (number : Nat) (before : String) (piece : List Char) : Prop
  | intro {above start finish after : List Char} :
      source.toList = before.toList ++ piece ++ after → piece ≠ [] →
      before.toList = above ++ start → (above = [] ∨ ['\n'] <:+ above) → '\n' ∉ start →
      finish <+: after → 1 ≤ number →
      (sourceLines source)[number - 1]? = some (start ++ piece ++ finish) →
      Displays source number (start ++ piece ++ finish) → Shows source number before piece

theorem getElem?_lines {source : String} {offset visible place : Nat} {text : List Char}
    (inside : place < visible) (listed : (sourceLines source)[offset + place]? = some text) :
    (lines source offset visible)[place]? = some ⟨lineSpans text (offset + place + 1), none⟩ := by
  rw [lines, List.getElem?_map, Pane.getElem?_window inside, List.getElem?_zipIdx, listed,
    Nat.add_comm (offset + place)]
  rfl

theorem exists_scroll {source : String} {index : Nat} (height : Nat)
    (listed : index < (sourceLines source).length) :
    ∃ scroll place, place < Pane.visibleLines height ∧
      offsetAfter source scroll height + place = index := by
  have positive := Pane.visibleLines_pos height
  refine ⟨index, index - offsetAfter source index height, ?_⟩
  unfold offsetAfter Pane.boundedOffset
  split <;> omega

theorem displays {source : String} {index : Nat} {text : List Char}
    (listed : (sourceLines source)[index]? = some text) : Displays source (index + 1) text where
  line scroll focused height place inside numbered := by
    obtain rfl := Nat.succ.inj numbered
    exact ⟨_, getElem?_lines inside listed, numbered_lineSpans text _⟩
  room scroll focused height tall := by
    rw [← Pane.visibleLines_of_tall tall, pane, lines, List.length_map]
    exact Pane.length_window_le ..
  scroll height := by
    obtain ⟨inside, -⟩ := List.getElem?_eq_some_iff.mp listed
    obtain ⟨scroll, place, within, reached⟩ := exists_scroll height inside
    exact ⟨scroll, place, within, congrArg Nat.succ reached⟩

/-- What holds no blank is shown on the line that the newlines before it tell. -/
theorem shows_of_place {source before : String} {piece after : List Char} {number : Nat}
    (split : source.toList = before.toList ++ piece ++ after)
    (counted : number = 1 + newlines before) (nonempty : piece ≠ [])
    (noBlank : ∀ character ∈ piece, isBlank character = false) : Shows source number before piece := by
  rw [counted]
  have absent {character : Char} (blank : isBlank character) : character ∉ piece :=
    fun member => Bool.false_ne_true ((noBlank character member).symm.trans blank)
  obtain ⟨above, start, finish, whole, ends, within, kept, line⟩ :=
    Text.exists_line before.toList after nonempty (absent (by decide)) (absent (by decide))
  rw [← split] at line
  have displays := displays line
  rw [Nat.add_comm] at displays
  refine .intro split nonempty whole ends within kept (Nat.le_add_right ..) ?_ displays
  rwa [Nat.add_sub_cancel_left]

theorem Shows.number_le {source before : String} {number : Nat} {piece : List Char}
    (shows : Shows source number before piece) :
    1 ≤ number ∧ number ≤ (sourceLines source).length := by
  cases shows with
  | intro _ _ _ _ _ _ positive listed _ =>
    obtain ⟨inside, -⟩ := List.getElem?_eq_some_iff.mp listed
    omega

inductive ShowsToken (source : String) (token : Token) : Prop
  | intro {lead trail : List Token} {before : String} :
      (Lexer.ofSource source).lexAll.tokens = lead ++ token :: trail → tokenize before = .ok lead →
      Shows source token.line before token.lexeme.toList → ShowsToken source token

theorem showsToken {source : String} {lead trail : List Token} {token : Token}
    (split : (Lexer.ofSource source).lexAll.tokens = lead ++ token :: trail) :
    ∃ before, tokenize before = .ok lead ∧ Shows source token.line before token.lexeme.toList := by
  obtain ⟨line, rest, tiles, -⟩ := (Lexer.ofSource source).tiles_lexAll
  rw [split] at tiles
  obtain ⟨before, after, rfl, lexes, counted⟩ := Tiles.place tiles
  obtain ⟨isLexeme, -⟩ := tiles.forall_token token (by simp)
  obtain ⟨first, others, starts, -⟩ := isLexeme.starts
  have nonempty : token.lexeme.toList ≠ [] := by
    rw [starts]
    exact List.cons_ne_nil first others
  have whole : (before ++ token.lexeme ++ after).toList =
      before.toList ++ token.lexeme.toList ++ after.toList := by
    rw [String.toList_append, String.toList_append]
  exact ⟨before, lexes, shows_of_place whole counted nonempty isLexeme.not_blank⟩

theorem shows_failure {source : String} {fault : LexicalFault} {line : Nat}
    (refused : tokenize source = .error ⟨fault, line⟩) :
    ∃ before, tokenize before = .ok (Lexer.ofSource source).lexAll.tokens ∧
      Shows source line before fault.text := by
  obtain ⟨last, rest, tiles, ⟨blank, -⟩ | ⟨error, fails, -⟩⟩ := (Lexer.ofSource source).tiles_lexAll
  · cases refused.symm.trans (tokenize_of_allBlank tiles blank)
  · cases refused.symm.trans (tokenize_of_fails tiles fails)
    obtain ⟨before, after, split, lexes, counted⟩ := Tiles.place_of_fails tiles fails
    obtain ⟨text, stuck⟩ : ∃ text, Stuck text fault := by
      cases fails with
      | intro _ stuck => exact ⟨_, stuck⟩
    obtain ⟨-, -, nonempty, noBlank⟩ := stuck.split
    exact ⟨before, lexes, shows_of_place split counted nonempty noBlank⟩

/-- The line of an error is one that the pane has, with what the error is about on it. Only the end
of the text may be on the line after the last. -/
inductive Reported (source : String) : SourceError → Prop
  | lexical {fault : LexicalFault} {line : Nat} {before : String} :
      tokenize before = .ok (Lexer.ofSource source).lexAll.tokens →
      Shows source line before fault.text → Reported source ⟨.lexical fault, line⟩
  | unexpectedToken {token : Token} : ShowsToken source token →
      Reported source ⟨.unexpectedToken token.lexeme, token.line⟩
  | nestedTooDeep {token : Token} : ShowsToken source token → token.kind = .leftParen →
      Reported source ⟨.nestedTooDeep, token.line⟩
  | illTyped {token : Token} {fault : TypeFault} : ShowsToken source token →
      Reported source ⟨.illTyped fault, token.line⟩
  | unexpectedEnd {line : Nat} : 1 ≤ line → line ≤ (sourceLines source).length + 1 →
      Reported source ⟨.unexpectedEnd, line⟩

theorem ShowsToken.number_le {source : String} {token : Token} (shows : ShowsToken source token) :
    1 ≤ token.line ∧ token.line ≤ (sourceLines source).length := by
  cases shows with
  | intro _ _ shows => exact shows.number_le

theorem Reported.line_le {source : String} {error : SourceError} (reported : Reported source error) :
    1 ≤ error.line ∧ error.line ≤ (sourceLines source).length + 1 ∧
      (error.fault ≠ .unexpectedEnd → error.line ≤ (sourceLines source).length) := by
  cases reported with
  | lexical _ shows =>
    obtain ⟨positive, inside⟩ := shows.number_le
    exact ⟨positive, Nat.le_succ_of_le inside, fun _ => inside⟩
  | unexpectedToken shows | nestedTooDeep shows | illTyped shows =>
    obtain ⟨positive, inside⟩ := shows.number_le
    exact ⟨positive, Nat.le_succ_of_le inside, fun _ => inside⟩
  | unexpectedEnd positive inside => exact ⟨positive, inside, fun other => absurd rfl other⟩

theorem reported_of_refusedAt {source : String} {tokens : List Token} {error : SourceError}
    (refused : Reader.RefusedAt tokens error) (shows : ∀ token ∈ tokens, ShowsToken source token) :
    Reported source error := by
  cases refused with
  | unexpectedToken ends => exact .unexpectedToken (shows _ (ends.subset (by simp)))
  | nestedTooDeep ends opens => exact .nestedTooDeep (shows _ (ends.subset (by simp))) opens
  | operation ends => exact .illTyped (shows _ (ends.subset (by simp)))
  | list ends => exact .illTyped (shows _ (ends.subset (by simp)))
  | test ends => exact .illTyped (shows _ (ends.subset (by simp)))

theorem showsToken_of_mem {source : String} {token : Token}
    (listed : token ∈ (Lexer.ofSource source).lexAll.tokens) : ShowsToken source token := by
  obtain ⟨lead, trail, split⟩ := List.append_of_mem listed
  obtain ⟨before, lexes, shows⟩ := showsToken split
  exact .intro split lexes shows

theorem reported_of_parse {source : String} {error : SourceError}
    (refused : parse source = .error error) : Reported source error := by
  rw [parse_eq_outcome] at refused
  -- Either all tokens are taken and the end of the text decides, or one of them is refused.
  cases fed : Reader.start.feed (Lexer.ofSource source).lexAll.tokens with
  | ok last =>
    have stops := stops_of_feed fed
    rw [refused] at stops
    generalize (Lexer.ofSource source).lexAll.after = after at stops
    cases stops with
    | unexpectedEnd _ =>
      refine .unexpectedEnd (Nat.le_add_right ..) ?_
      rw [Nat.add_comm]
      exact Nat.succ_le_succ (Text.length_lines source.toList).1
    | lexical failed =>
      obtain ⟨before, lexes, shows⟩ := shows_failure failed
      exact .lexical lexes shows
    | refused refused _ => exact reported_of_refusedAt refused fun _ => showsToken_of_mem
  | error other =>
    obtain ⟨before, token, later, next, split, taken, refusal⟩ := Reader.feed_eq_error_iff.mp fed
    rw [Reader.outcome, fed] at refused
    cases refused
    refine reported_of_refusedAt ((Reader.start_holds.feed taken).refusedAt refusal) ?_
    intro shown member
    refine showsToken_of_mem ?_
    rw [split, ← List.singleton_append, ← List.append_assoc]
    exact List.mem_append_left _ member

/-- Tokens, faults of the lexer and errors of the parser stand on the lines that they name, as the
source pane numbers these. -/
theorem shows_reported (source : String) :
    (∀ lead token trail, (Lexer.ofSource source).lexAll.tokens = lead ++ token :: trail →
      ∃ before, tokenize before = .ok lead ∧
        Shows source token.line before token.lexeme.toList) ∧
    (∀ fault line, tokenize source = .error ⟨fault, line⟩ →
      ∃ before, tokenize before = .ok (Lexer.ofSource source).lexAll.tokens ∧
        Shows source line before fault.text) ∧
    ∀ error, parse source = .error error →
      Reported source error ∧ 1 ≤ error.line ∧ error.line ≤ (sourceLines source).length + 1 ∧
        (error.fault ≠ .unexpectedEnd → error.line ≤ (sourceLines source).length) := by
  refine ⟨fun _ _ _ => showsToken, fun _ _ => shows_failure, fun error refused => ?_⟩
  have reported := reported_of_parse refused
  exact ⟨reported, reported.line_le⟩

theorem shows_reported_returns :
    (∃ before, tokenize before = .ok [⟨.leftParen, "(", 1⟩, ⟨.identifier, "f", 1⟩] ∧
      Shows "(f\r\n1\r ?\n" 2 before "1".toList) ∧
    (∃ before, tokenize before = .ok [⟨.leftParen, "(", 1⟩, ⟨.identifier, "f", 1⟩, ⟨.number 1, "1", 2⟩] ∧
      Shows "(f\r\n1\r ?\n" 2 before ['?']) ∧
    Reported "(f\r\n1\r 2\n" ⟨.unexpectedEnd, 3⟩ ∧ (sourceLines "(f\r\n1\r 2\n").length = 2 := by
  have lexed : (Lexer.ofSource "(f\r\n1\r ?\n").lexAll =
      ⟨[⟨.leftParen, "(", 1⟩, ⟨.identifier, "f", 1⟩] ++ ⟨.number 1, "1", 2⟩ :: [],
        some ⟨.illegal '?', 2⟩, ⟨[], 2⟩⟩ := by decide +kernel
  have refused : tokenize "(f\r\n1\r ?\n" = .error ⟨.illegal '?', 2⟩ := by
    rw [tokenize, lexed]
    rfl
  have ended : parse "(f\r\n1\r 2\n" = .error ⟨.unexpectedEnd, 3⟩ := by decide +kernel
  obtain ⟨token, failed, -⟩ := shows_reported "(f\r\n1\r ?\n"
  obtain ⟨-, -, reported⟩ := shows_reported "(f\r\n1\r 2\n"
  have illegal := failed _ _ refused
  rw [lexed] at illegal
  exact ⟨token _ _ _ (congrArg Lexed.tokens lexed), illegal, (reported _ ended).1, by decide +kernel⟩

end SourcePane

end TypedLisp
