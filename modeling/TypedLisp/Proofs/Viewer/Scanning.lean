import TypedLisp.Proofs.Viewer.Words

/-! Coloring a line in one pass over its bytes.

The pass knows where in the bytes of the line an open word starts, and cuts a word
or a delimiter out of the line when it comes to its end. A cut within a character
would fail, but all positions that it gets to are the sizes of texts that the line
starts with. So it cuts the line into its pieces, and never fails.
-/

set_option autoImplicit false

namespace TypedLisp.Highlight

/-- The bytes of a text from one position to another, if neither is within a character. -/
def slice? (text : String) (start stop : Nat) : Option String :=
  if valid : (⟨start⟩ : String.Pos.Raw).IsValid text ∧ (⟨stop⟩ : String.Pos.Raw).IsValid text ∧
      start ≤ stop then
    some (String.extract (s := text) ⟨⟨start⟩, valid.1⟩ ⟨⟨stop⟩, valid.2.1⟩)
  else none

/-- A pass under way: where the open word starts, and the spans before it. -/
structure Scan where
  wordStart : Option Nat
  spans : List Span

namespace Scan

def endWord (line : String) (scan : Scan) (position : Nat) : Option (List Span) :=
  match scan.wordStart with
  | none => some scan.spans
  | some start =>
      (slice? line start position).map fun word => scan.spans ++ [⟨word, styleOfWord word.toList⟩]

def step (line : String) (scan : Scan) (position : Nat) (character : Char) : Option Scan :=
  if isDelimiter character then do
    let spans ← scan.endWord line position
    let delimiter ← slice? line position (position + character.utf8Size)
    return ⟨none, spans ++ [⟨delimiter, styleOfDelimiter character⟩]⟩
  else some { scan with wordStart := some (scan.wordStart.getD position) }

def goOn (line : String) (scan : Scan) (position : Nat) : List Char → Option (List Span)
  | [] => scan.endWord line line.utf8ByteSize
  | character :: rest => do
      let next ← scan.step line position character
      next.goOn line (position + character.utf8Size) rest

end Scan

def scan? (line : String) : Option (List Span) :=
  Scan.goOn line ⟨none, []⟩ 0 line.toList

/-! ## Slices -/

theorem isValid_append (before after : String) :
    (⟨before.utf8ByteSize⟩ : String.Pos.Raw).IsValid (before ++ after) :=
  String.Pos.Raw.isValid_iff_exists_append.mpr ⟨before, after, rfl, rfl⟩

theorem slice?_append (before middle after : String) :
    slice? (before ++ middle ++ after) before.utf8ByteSize
      (before.utf8ByteSize + middle.utf8ByteSize) = some middle := by
  have start := isValid_append before (middle ++ after)
  have stop := isValid_append (before ++ middle) after
  rw [← String.append_assoc] at start
  rw [String.utf8ByteSize_append] at stop
  rw [slice?, dif_pos ⟨start, stop, Nat.le_add_right ..⟩, Option.some.injEq, ← String.toByteArray_inj,
    String.toByteArray_extract]
  -- Behind the bytes of `before`, the bytes asked for are a prefix of what remains.
  have behind := ByteArray.extract_append_size_add (a := before.toByteArray)
    (b := middle.toByteArray ++ after.toByteArray) (i := 0) (j := middle.toByteArray.size)
  rw [Nat.add_zero, ByteArray.extract_append_eq_left rfl, ← ByteArray.append_assoc,
    ← String.toByteArray_append, ← String.toByteArray_append] at behind
  exact behind

example : slice? "é(" 0 1 = none := by decide

/-! ## The pass -/

/-- A line as the pass has it anywhere: whole pieces up to a delimiter, a part of a word, and the
characters to come. -/
structure Reaches (line done word : String) (rest : List Char) : Prop where
  whole : line = done ++ word ++ String.ofList rest
  plain : ∀ character ∈ word.toList, isDelimiter character = false
  ended : ∀ last ∈ done.toList.getLast?, isDelimiter last

namespace Reaches

variable {line done word : String} {rest : List Char} {character : Char}

theorem start (line : String) : Reaches line "" "" line.toList :=
  ⟨by simp, by simp, by simp⟩

theorem further (reaches : Reaches line done word (character :: rest))
    (plain : isDelimiter character = false) :
    Reaches line done (word ++ String.singleton character) rest where
  whole := by simp only [reaches.whole, String.ofList_cons, String.append_assoc]
  plain := by simpa [or_imp, forall_and] using ⟨reaches.plain, plain⟩
  ended := reaches.ended

theorem across (reaches : Reaches line done word (character :: rest)) (stands : isDelimiter character) :
    Reaches line (done ++ word ++ String.singleton character) "" rest where
  whole := by simp only [reaches.whole, String.ofList_cons, String.append_assoc, String.empty_append]
  plain := by simp
  ended := by simp [stands]

end Reaches

namespace Scan

def within (done word : String) : Scan :=
  ⟨if word = "" then none else some done.utf8ByteSize, Highlight.spans done.toList⟩

section
variable {line done word : String} {rest : List Char} {character : Char}

theorem endWord_within (reaches : Reaches line done word rest) :
    (within done word).endWord line (done.utf8ByteSize + word.utf8ByteSize) =
      some (Highlight.spans (done ++ word).toList) := by
  unfold endWord within
  by_cases empty : word = ""
  · simp [empty]
  · have nonempty : word.toList ≠ [] := by simpa using empty
    have together : Highlight.spans (done ++ word).toList =
        Highlight.spans done.toList ++ [⟨word, styleOfWord word.toList⟩] := by
      rw [String.toList_append, spans_append fun last ends _ _ => .inl (reaches.ended last ends),
        spans_of_plain nonempty reaches.plain, String.ofList_toList]
    simp only [if_neg empty, reaches.whole, slice?_append, Option.map_some, together]

theorem step_of_plain (plain : isDelimiter character = false) :
    (within done word).step line (done.utf8ByteSize + word.utf8ByteSize) character =
      some (within done (word ++ String.singleton character)) := by
  have started : word ++ String.singleton character ≠ "" := by
    simp
  rw [step, if_neg (by simp [plain]), within, within, if_neg started]
  by_cases empty : word = ""
  · simp [empty]
  · simp [empty]

theorem step_of_delimiter (reaches : Reaches line done word (character :: rest))
    (stands : isDelimiter character) :
    (within done word).step line (done.utf8ByteSize + word.utf8ByteSize) character =
      some (within (done ++ word ++ String.singleton character) "") := by
  have slice := slice?_append (done ++ word) (String.singleton character) (String.ofList rest)
  have whole := (reaches.across stands).whole
  rw [String.append_empty] at whole
  rw [← whole, String.utf8ByteSize_append, String.utf8ByteSize_singleton] at slice
  have together : Highlight.spans (done ++ word ++ String.singleton character).toList =
      Highlight.spans (done ++ word).toList ++
        [⟨String.singleton character, styleOfDelimiter character⟩] := by
    rw [String.toList_append, String.toList_singleton, spans_append_delimiter stands,
      String.singleton_eq_ofList]
  rw [step, if_pos stands, endWord_within reaches, within, together]
  simp [slice]

end

/-- The pass takes the rest of the line from any position that it gets to. -/
theorem goOn_within {line done word : String} {rest : List Char}
    (reaches : Reaches line done word rest) :
    (within done word).goOn line (done.utf8ByteSize + word.utf8ByteSize) rest =
      some (Highlight.spans line.toList) := by
  -- A step moves the cut to the next character, so the hypothesis is about another cut of the line.
  induction rest generalizing done word with
  | nil =>
    have ends := endWord_within reaches
    have all : done ++ word = line := by simp [reaches.whole]
    rwa [← String.utf8ByteSize_append, all] at ends
  | cons character rest ih =>
    rw [goOn]
    cases delimiter : isDelimiter character with
    | true =>
      have goes_on := ih (reaches.across delimiter)
      rw [step_of_delimiter reaches delimiter]
      simpa [Nat.add_assoc] using goes_on
    | false =>
      have goes_on := ih (reaches.further delimiter)
      rw [step_of_plain delimiter]
      simpa [Nat.add_assoc] using goes_on

end Scan

theorem scan?_eq (line : String) : scan? line = some (spans line.toList) := by
  have start : Scan.within "" "" = ⟨none, []⟩ := by simp [Scan.within, spans, pieces]
  have all := Scan.goOn_within (Reaches.start line)
  rwa [start] at all

/-! ## Tiles -/

/-- A span, between what stands before it and after it in the line: a delimiter, or a word that goes
as far as there is none. -/
inductive Tile (before after : List Char) : Span → Prop
  | delimiter {delimiter : Char} : isDelimiter delimiter →
      Tile before after ⟨String.ofList [delimiter], styleOfDelimiter delimiter⟩
  | word {word : List Char} : word ≠ [] → (∀ character ∈ word, isDelimiter character = false) →
      Delimited before after → Tile before after ⟨String.ofList word, styleOfWord word⟩

theorem tile_of_split {line : List Char} {before after : List Span} {span : Span}
    (split : spans line = before ++ span :: after) :
    Tile (lineText before).toList (lineText after).toList span := by
  obtain ⟨earlier, others, pieces, rfl, behind⟩ := List.map_eq_append_iff.mp split
  obtain ⟨piece, later, rfl, rfl, rfl⟩ := List.map_eq_cons_iff.mp behind
  have texts (pieces : List (List Char)) :
      (lineText (pieces.map fun piece => ⟨String.ofList piece, styleOfPiece piece⟩)).toList =
        pieces.flatten := by
    simp [lineText, String.toList_join, List.flatMap_map]
  rw [texts, texts]
  rcases cases_piece pieces with ⟨delimiter, stands, rfl⟩ | ⟨nonempty, plain, delimited⟩
  · rw [styleOfPiece_of_delimiter stands]
    exact .delimiter stands
  · rw [styleOfPiece_of_plain nonempty plain]
    exact .word nonempty plain delimited

theorem text_ne_empty {line : List Char} {span : Span} (member : span ∈ spans line) :
    span.text ≠ "" := by
  obtain ⟨piece, listed, rfl⟩ := List.mem_map.mp member
  simpa using ne_nil_of_mem_pieces listed

/-- The pass never cuts a character. What it cuts a line into is the line again, one delimiter or
one whole word after the other. -/
theorem scan_tiles (line : String) :
    ∃ tiles, scan? line = some tiles ∧ tiles = spans line.toList ∧ lineText tiles = line ∧
      (∀ span ∈ tiles, span.text ≠ "") ∧
      ∀ before span after, tiles = before ++ span :: after →
        Tile (lineText before).toList (lineText after).toList span ∧
          slice? line (lineText before).utf8ByteSize
            ((lineText before).utf8ByteSize + span.text.utf8ByteSize) = some span.text := by
  have all : lineText (spans line.toList) = line := by rw [lineText_spans, String.ofList_toList]
  refine ⟨spans line.toList, scan?_eq line, rfl, all, fun _ => text_ne_empty, ?_⟩
  intro before span after split
  have whole : line = lineText before ++ span.text ++ lineText after := by
    rw [← all, split]
    simp [lineText, String.join_append, String.append_assoc]
  refine ⟨tile_of_split split, ?_⟩
  rw [whole]
  exact slice?_append ..

theorem scan_tiles_wide :
    ∃ tiles, scan? "é\u3000(λ" = some tiles ∧
      Tile ['é'] ['(', 'λ'] ⟨"\u3000", .plain⟩ ∧ slice? "é\u3000(λ" 2 5 = some "\u3000" ∧
      Tile ['é', '\u3000', '('] [] ⟨"λ", .colored Theme.text⟩ := by
  obtain ⟨tiles, scanned, rfl, -, -, each⟩ := scan_tiles "é\u3000(λ"
  have split : spans "é\u3000(λ".toList =
      [⟨"é", .colored Theme.text⟩, ⟨"\u3000", .plain⟩, ⟨"(", .colored Theme.bracket⟩,
        ⟨"λ", .colored Theme.text⟩] := by decide +kernel
  obtain ⟨blank, slice⟩ := each [_] _ [_, _] split
  obtain ⟨word, -⟩ := each [_, _, _] _ [] split
  exact ⟨_, scanned, blank, slice, word⟩

end TypedLisp.Highlight
