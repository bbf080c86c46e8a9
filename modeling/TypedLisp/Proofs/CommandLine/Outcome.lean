import TypedLisp.CommandLine.Session
import TypedLisp.Proofs.CommandLine.Arguments
import TypedLisp.Proofs.Disk.Drawing
import TypedLisp.Proofs.Graph.Flattening
import TypedLisp.Proofs.Text.Lines
import TypedLisp.Proofs.Writing.Adequacy

/-! What a run of the command line comes to.

A run fetches its source and then goes one of four ways: it fails to read, lists
tokens, fails to parse or presents a tree. Only the last one asks the host to write,
and what the host answers has a part in the messages and in nothing else.
-/

set_option autoImplicit false

namespace TypedLisp

variable {World : Type} {host : Host (StateM World)} {world : World}

theorem Graph.isEmpty_vertices_ofNode (tree : Node) : (ofNode tree).vertices.isEmpty = false := by
  rw [ofNode_eq, Node.nodes_eq]
  rfl

namespace CommandLine

section
variable {directory stem : String} {graph : Graph} (drawable : graph.vertices.isEmpty = false)
include drawable

theorem drawInto_of_saves
    (saves : host.Saves directory (DrawingSettings.path { directory, stem }) graph.dotText.toUTF8 world) :
    drawInto host directory stem graph world =
      (["Graph written to " ++ DrawingSettings.path { directory, stem }],
        (host.writeFile (DrawingSettings.path { directory, stem }) graph.dotText.toUTF8
          (host.createDirectories directory world).2).2) := by
  obtain ⟨saved, after⟩ := DotWriter.save_of_saves { directory, stem } saves
  rw [drawInto, bind_apply, DotWriter.draw_of_saved drawable saved, ← after]
  rfl

theorem drawInto_of_not_saves
    (fails : ¬host.Saves directory (DrawingSettings.path { directory, stem }) graph.dotText.toUTF8
      world) :
    (drawInto host directory stem graph world).1 = [] := by
  let writer := DotWriter.start { directory, stem }
  cases saved : (DotWriter.save host writer.settings graph.dotText world).1 with
  | error error =>
    rw [drawInto, bind_apply, DotWriter.draw_of_unsaved drawable saved]
    rfl
  | ok => exact absurd (DotWriter.saves_of_save { directory, stem } saved) fails

end

/-! ## The ways a run may go -/

section
variable {options : Options} {source : Source}

theorem run_of_unread {error : FileError} (unread : (fetchSource host options world).1 = .error error) :
    run host options world =
      (failure ("Error: cannot read input: " ++ error.message), (fetchSource host options world).2) := by
  rw [run, bind_apply, unread]
  rfl

variable (fetched : (fetchSource host options world).1 = .ok source)
include fetched

theorem run_of_tokens (tokens : options.tokens) :
    run host options world = (listTokens source.text, (fetchSource host options world).2) := by
  rw [run, bind_apply, fetched]
  simp only [if_pos tokens]
  rfl

theorem run_of_unparsed (program : options.tokens = false) {error : SourceError}
    (refused : parse source.text = .error error) :
    run host options world =
      (failure ("Parser error: " ++ SourceError.message error),
        (fetchSource host options world).2) := by
  rw [run, bind_apply, fetched]
  simp only [program, refused]
  rfl

theorem run_of_parsed (program : options.tokens = false) {tree : Node}
    (parsed : parse source.text = .ok tree) :
    run host options world =
      present host options source.stem tree (fetchSource host options world).2 := by
  rw [run, bind_apply, fetched]
  simp only [program, parsed]
  rfl

end

theorem present_apply (options : Options) (stem : String) (tree : Node) :
    (present host options stem tree world).1.exitCode = 0 ∧
      (present host options stem tree world).1.output =
        if options.noViewer then (Graph.ofNode tree).outlineText else "" := by
  unfold present
  cases options.dotDirectory <;> exact ⟨rfl, rfl⟩

theorem present_drawing (host : Host (StateM World)) (world : World) (options : Options)
    (directory stem : String) (tree : Node) :
    (present host (options.drawing directory) stem tree world).1.messages =
        (drawInto host directory stem (Graph.ofNode tree) world).1 ∧
      (present host (options.drawing directory) stem tree world).2 =
        (drawInto host directory stem (Graph.ofNode tree) world).2 :=
  ⟨rfl, rfl⟩

/-! ## Files -/

variable {held : World → String → Except FileError ByteArray}

theorem held_fetchSource (honest : host.Honest held) (options : Options) (world : World) :
    held (fetchSource host options world).2 = held world := by
  unfold fetchSource
  cases options.expression with
  | some text => rfl
  | none =>
    cases options.file? with
    | some file => exact honest.readFile file world
    | none => exact honest.readInput world

/-- A run that ends without a result prints nothing, announces nothing and leaves all files alone. -/
structure Failed (held : World → String → Except FileError ByteArray) (world : World)
    (ran : Response × World) : Prop where
  exitCode : ran.1.exitCode = 1
  output : ran.1.output = ""
  unannounced : ∀ path, "Graph written to " ++ path ∉ ran.1.messages
  unwritten : held ran.2 = held world

theorem failed_of_failure {message : String} {after : World}
    (apart : message.toList.head? ≠ some 'G') (kept : held after = held world) :
    Failed held world (failure message, after) where
  exitCode := rfl
  output := rfl
  unannounced path announced := by
    have same := List.mem_singleton.mp announced
    rw [← same, String.toList_append] at apart
    exact apart rfl
  unwritten := kept

/-- A run without the viewer that is not asked for tokens. -/
structure Prints (host : Host (StateM World)) (held : World → String → Except FileError ByteArray)
    (options : Options) (world : World) : Prop where
  unread : ∀ error, (fetchSource host options world).1 = .error error →
    Failed held world (run host options world)
  unparsed : ∀ source error, (fetchSource host options world).1 = .ok source →
    parse source.text = .error error → Failed held world (run host options world)
  parsed : ∀ source tree, (fetchSource host options world).1 = .ok source →
    parse source.text = .ok tree →
    (run host options world).1.exitCode = 0 ∧
      (run host options world).1.output = (Graph.ofNode tree).outlineText

/-- A run that is asked to draw as well. -/
structure Draws (host : Host (StateM World)) (held : World → String → Except FileError ByteArray)
    (options : Options) (directory : String) (world : World) : Prop where
  exitCode : (run host (options.drawing directory) world).1.exitCode =
    (run host options world).1.exitCode
  output : (run host (options.drawing directory) world).1.output =
    (run host options world).1.output
  announced : ∀ source tree, (fetchSource host options world).1 = .ok source →
    parse source.text = .ok tree → ∀ path,
    "Graph written to " ++ path ∈ (run host (options.drawing directory) world).1.messages ↔
      path = DrawingSettings.path { directory, stem := source.stem } ∧
        host.Saves directory path (Graph.ofNode tree).dotText.toUTF8 (fetchSource host options world).2
  written : ∀ source tree, (fetchSource host options world).1 = .ok source →
    parse source.text = .ok tree → ∀ path,
    "Graph written to " ++ path ∈ (run host (options.drawing directory) world).1.messages →
      held (run host (options.drawing directory) world).2 path =
        .ok (Graph.ofNode tree).dotText.toUTF8

/-- A run that is asked for tokens. -/
structure Lists (host : Host (StateM World)) (held : World → String → Except FileError ByteArray)
    (options : Options) (world : World) : Prop where
  unwritten : held (run host options world).2 = held world
  exitCode : (run host options world).1.exitCode = 0 ↔
    ∃ source tokens, (fetchSource host options world).1 = .ok source ∧
      tokenize source.text = .ok tokens
  lines : ∀ source tokens, (fetchSource host options world).1 = .ok source →
    tokenize source.text = .ok tokens →
    Text.lines (run host options world).1.output.toList = tokens.map (·.display.toList)

section
variable {options : Options}

theorem prints (honest : host.Honest held) (plain : options.noViewer)
    (program : options.tokens = false) : Prints host held options world where
  unread error unread := by
    rw [run_of_unread unread]
    apply failed_of_failure
    · rw [String.toList_append, List.head?_append_of_ne_nil _ (by decide)]
      decide
    · exact held_fetchSource honest options world
  unparsed source error fetched refused := by
    rw [run_of_unparsed fetched program refused]
    apply failed_of_failure
    · rw [String.toList_append, List.head?_append_of_ne_nil _ (by decide)]
      decide
    · exact held_fetchSource honest options world
  parsed source tree fetched parsed := by
    rw [run_of_parsed fetched program parsed]
    obtain ⟨exitCode, output⟩ := present_apply options source.stem tree
    exact ⟨exitCode, output.trans (if_pos plain)⟩

theorem fetchSource_drawing (directory : String) :
    fetchSource host (options.drawing directory) = fetchSource host options := rfl

theorem run_drawing {source : Source} {tree : Node} (program : options.tokens = false)
    (fetched : (fetchSource host options world).1 = .ok source) (parsed : parse source.text = .ok tree)
    (directory : String) :
    run host (options.drawing directory) world =
      present host (options.drawing directory) source.stem tree (fetchSource host options world).2 := by
  rw [← fetchSource_drawing directory] at fetched
  exact run_of_parsed fetched program parsed

-- A drawing may leave another world behind, but the response is made of what was fetched before it.
theorem response_drawing (program : options.tokens = false) (directory : String) :
    (run host (options.drawing directory) world).1.exitCode = (run host options world).1.exitCode ∧
      (run host (options.drawing directory) world).1.output = (run host options world).1.output := by
  cases fetched : (fetchSource host options world).1 with
  | error error =>
    have fetched' := fetched
    rw [← fetchSource_drawing directory] at fetched'
    rw [run_of_unread fetched, run_of_unread fetched']
    exact ⟨rfl, rfl⟩
  | ok source =>
    cases parsed : parse source.text with
    | error error =>
      have fetched' := fetched
      rw [← fetchSource_drawing directory] at fetched'
      rw [run_of_unparsed fetched program parsed, run_of_unparsed fetched' program parsed]
      exact ⟨rfl, rfl⟩
    | ok tree =>
      obtain ⟨exitCode, output⟩ := present_apply options source.stem tree
      obtain ⟨exitCode', output'⟩ := present_apply (options.drawing directory) source.stem tree
      rw [run_of_parsed fetched program parsed, run_drawing program fetched parsed]
      exact ⟨exitCode'.trans exitCode.symm, output'.trans output.symm⟩

/-- A drawing is announced where the host reports that it was saved, and then it is there. -/
theorem messages_drawing {source : Source} {tree : Node} (honest : host.Honest held)
    (program : options.tokens = false) (fetched : (fetchSource host options world).1 = .ok source)
    (parsed : parse source.text = .ok tree) (directory path : String) :
    ("Graph written to " ++ path ∈ (run host (options.drawing directory) world).1.messages ↔
      path = DrawingSettings.path { directory, stem := source.stem } ∧
        host.Saves directory path (Graph.ofNode tree).dotText.toUTF8
          (fetchSource host options world).2) ∧
    ("Graph written to " ++ path ∈ (run host (options.drawing directory) world).1.messages →
      held (run host (options.drawing directory) world).2 path =
        .ok (Graph.ofNode tree).dotText.toUTF8) := by
  obtain ⟨messages, after⟩ :=
    present_drawing host (fetchSource host options world).2 options directory source.stem tree
  have drawable := Graph.isEmpty_vertices_ofNode tree
  rw [run_drawing program fetched parsed, messages, after]
  -- The path of the message is that of the drawing, and there is no other message.
  by_cases saves : host.Saves directory (DrawingSettings.path { directory, stem := source.stem })
    (Graph.ofNode tree).dotText.toUTF8 (fetchSource host options world).2
  · rw [drawInto_of_saves drawable saves, List.mem_singleton, String.append_right_inj]
    constructor
    · constructor
      · rintro rfl
        exact ⟨rfl, saves⟩
      · exact And.left
    · rintro rfl
      exact honest.writeFile _ _ _ saves.written
  · rw [drawInto_of_not_saves drawable saves]
    constructor
    · constructor
      · intro announced
        cases announced
      · rintro ⟨rfl, saves'⟩
        exact absurd saves' saves
    · intro announced
      cases announced

theorem draws (honest : host.Honest held) (program : options.tokens = false) (directory : String) :
    Draws host held options directory world where
  exitCode := (response_drawing program directory).1
  output := (response_drawing program directory).2
  announced _ _ fetched parsed path :=
    (messages_drawing honest program fetched parsed directory path).1
  written _ _ fetched parsed path :=
    (messages_drawing honest program fetched parsed directory path).2

end

/-! ## Tokens -/

theorem not_blank_of_mem_name {kind : TokenKind} :
    ∀ character ∈ kind.name.toList, isBlank character = false := by
  have plain : (kind.name.toList.all fun character => !isBlank character) = true := by
    cases kind with
    | operator operation => cases operation <;> decide
    | _ =>
      rw [TokenKind.name]
      decide
  simpa using plain

theorem isBlank_of_isDigit {character : Char} (digit : character.isDigit) :
    isBlank character = false := by
  rw [Bool.eq_false_iff]
  intro blank
  have listed := isBlank_iff.mp blank
  simp only [List.mem_cons, List.not_mem_nil, or_false] at listed
  obtain rfl | rfl | rfl | rfl := listed <;> exact absurd digit (by decide)

theorem eq_space_of_mem_display {token : Token} (isLexeme : IsLexeme token.lexeme.toList)
    {character : Char} (member : character ∈ token.display.toList) (blank : isBlank character) :
    character = ' ' := by
  have before : "(".toList.all fun character => !isBlank character := by decide
  have after : ") line ".toList.all fun character => !isBlank character || character == ' ' := by
    decide
  simp only [Token.display, String.toList_append, List.mem_append] at member
  obtain (((named | opening) | spelled) | closing) | counted := member
  · simp [not_blank_of_mem_name character named] at blank
  · simpa [blank] using List.all_eq_true.mp before character opening
  · simp [isLexeme.not_blank character spelled] at blank
  · simpa [blank] using List.all_eq_true.mp after character closing
  · simp [isBlank_of_isDigit (Text.isDigit_of_mem_toString counted)] at blank

theorem lines_tokens {source : String} {tokens : List Token} (lexes : tokenize source = .ok tokens) :
    Text.lines (String.join (tokens.map fun token => token.display ++ "\n")).toList =
      tokens.map (·.display.toList) := by
  have shown (blank : Char) (isBlank' : isBlank blank) (other : blank ≠ ' ') :
      ∀ line ∈ tokens.map (·.display.toList), blank ∉ line := by
    rw [List.forall_mem_map]
    intro token listed member
    exact other (eq_space_of_mem_display (lexed_of_tokenize lexes token listed).1 member isBlank')
  have text : (String.join (tokens.map fun token => token.display ++ "\n")).toList =
      (tokens.map (·.display.toList)).flatMap (· ++ ['\n']) := by
    rw [String.toList_join, List.flatMap_map, List.flatMap_map]
    simp only [String.toList_append]
    rfl
  rw [text]
  exact Text.lines_flatMap_append (shown '\n' rfl (by decide)) (shown '\r' rfl (by decide))

theorem exitCode_listTokens (text : String) :
    (listTokens text).exitCode = 0 ↔ ∃ tokens, tokenize text = .ok tokens := by
  unfold listTokens
  cases tokenize text <;> simp [failure]

section
variable {options : Options}

theorem lists (honest : host.Honest held) (tokens : options.tokens) :
    Lists host held options world where
  unwritten := by
    have kept := held_fetchSource honest options world
    cases fetched : (fetchSource host options world).1 with
    | error error => rwa [run_of_unread fetched]
    | ok source => rwa [run_of_tokens fetched tokens]
  exitCode := by
    cases fetched : (fetchSource host options world).1 with
    | error error =>
      rw [run_of_unread fetched]
      simp [failure]
    | ok source =>
      rw [run_of_tokens fetched tokens, exitCode_listTokens]
      simp
  lines source listed fetched lexes := by
    rw [run_of_tokens fetched tokens, listTokens, lexes]
    exact lines_tokens lexes

end

end CommandLine

end TypedLisp
