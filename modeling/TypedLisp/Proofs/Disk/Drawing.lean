import Mathlib.Data.List.Induction
import TypedLisp.Drawing
import TypedLisp.Proofs.Disk.Files

/-! Drawings one after the other.

A writer makes the directory and then writes the file, and remembers the path if the
host reports both. Whatever the host reports, it has touched no other file, so a run
of drawings leaves all files but one as they were. Since a writer never changes its
settings, that is the same file all along.
-/

set_option autoImplicit false

namespace TypedLisp

variable {World File : Type} {host : Host (StateM World)} {world : World}

theorem bind_apply {α β : Type} (action : StateM World α) (next : α → StateM World β)
    (world : World) : (action >>= next) world = next (action world).1 (action world).2 := rfl

/-- A host reports that it has made a directory and then that it has written a file. -/
structure Host.Saves (host : Host (StateM World)) (directory path : String) (content : ByteArray)
    (world : World) : Prop where
  made : (host.createDirectories directory world).1 = .ok ()
  written : (host.writeFile path content (host.createDirectories directory world).2).1 = .ok ()

namespace DotWriter

variable (settings : DrawingSettings) {text : String}

theorem save_of_saves (saves : host.Saves settings.directory settings.path text.toUTF8 world) :
    (save host settings text world).1 = .ok () ∧
      (save host settings text world).2 =
        (host.writeFile settings.path text.toUTF8
          (host.createDirectories settings.directory world).2).2 := by
  rw [save, bind_apply, saves.made]
  exact ⟨saves.written, rfl⟩

theorem saves_of_save (saved : (save host settings text world).1 = .ok ()) :
    host.Saves settings.directory settings.path text.toUTF8 world := by
  rw [save, bind_apply] at saved
  cases made : (host.createDirectories settings.directory world).1 with
  | error error =>
    rw [made] at saved
    cases saved
  | ok =>
    rw [made] at saved
    exact ⟨made, saved⟩

theorem draw_of_empty {graph : Graph} (empty : graph.vertices = []) (writer : DotWriter)
    (world : World) : draw host writer graph world = ((.error .emptyGraph, writer), world) := by
  rw [draw, if_pos (by simp [empty])]
  rfl

section
variable {writer : DotWriter} {graph : Graph} (drawable : graph.vertices.isEmpty = false)
include drawable

theorem draw_of_saved (saved : (save host writer.settings graph.dotText world).1 = .ok ()) :
    draw host writer graph world =
      ((.ok (), { writer with written := some writer.settings.path }),
        (save host writer.settings graph.dotText world).2) := by
  rw [draw, if_neg (by simp [drawable]), bind_apply, saved]
  rfl

theorem draw_of_unsaved {error : FileError}
    (failed : (save host writer.settings graph.dotText world).1 = .error error) :
    draw host writer graph world =
      ((.error (.io error), writer), (save host writer.settings graph.dotText world).2) := by
  rw [draw, if_neg (by simp [drawable]), bind_apply, failed]
  rfl

end

/-! ## One drawing -/

/-- What a drawing reports, the writer and the world that it leaves. -/
structure Draws (host : Host (StateM World)) (files : Files World File) (writer : DotWriter)
    (graph : Graph) (before : World) (drawn : (Except DrawingError Unit × DotWriter) × World) :
    Prop where
  succeeds : drawn.1.1 = .ok () ↔ graph.vertices ≠ [] ∧
    host.Saves writer.settings.directory writer.settings.path graph.dotText.toUTF8 before
  refused : graph.vertices = [] → drawn.1.1 = .error .emptyGraph ∧ drawn.2 = before
  failed : ∀ error, drawn.1.1 = .error error → drawn.1.2 = writer
  written : drawn.1.1 = .ok () →
    drawn.1.2 = { writer with written := some writer.settings.path } ∧
      files.Holds drawn.2 writer.settings.path graph.dotText.toUTF8
  spares : files.Spares writer.settings.path before drawn.2

section
variable {files : Files World File} (faithful : host.Faithful files)
include faithful

theorem spares_save (settings : DrawingSettings) (text : String) (world : World) :
    files.Spares settings.path world (save host settings text world).2 := by
  have prepared := faithful.createDirectories settings.directory world settings.path
  rw [save, bind_apply]
  cases (host.createDirectories settings.directory world).1 with
  | error error => exact prepared
  | ok => exact prepared.trans (faithful.writeFile settings.path text.toUTF8 _)

theorem holds_save (saved : (save host settings text world).1 = .ok ()) :
    files.Holds (save host settings text world).2 settings.path text.toUTF8 := by
  have saves := saves_of_save settings saved
  rw [(save_of_saves settings saves).2]
  exact faithful.written settings.path text.toUTF8 _ saves.written

-- The empty graph is refused before the host is asked for anything; otherwise the host decides.
theorem draw_draws (writer : DotWriter) (graph : Graph) (world : World) :
    Draws host files writer graph world (draw host writer graph world) := by
  by_cases empty : graph.vertices = []
  · rw [draw_of_empty empty]
    refine ⟨⟨fun drawn => ?_, fun drawn => absurd empty drawn.1⟩, fun _ => ⟨rfl, rfl⟩, fun _ _ => rfl,
      fun drawn => ?_, .refl ..⟩
    · cases drawn
    · cases drawn
  have drawable : graph.vertices.isEmpty = false := by simpa using empty
  have spares := spares_save faithful writer.settings graph.dotText world
  cases saved : (save host writer.settings graph.dotText world).1 with
  | error error =>
    have fails : ¬host.Saves writer.settings.directory writer.settings.path graph.dotText.toUTF8
        world := by
      intro saves
      rw [(save_of_saves writer.settings saves).1] at saved
      cases saved
    rw [draw_of_unsaved drawable saved]
    refine ⟨⟨fun drawn => ?_, fun drawn => absurd drawn.2 fails⟩, fun absent => absurd absent empty,
      fun _ _ => rfl, fun drawn => ?_, spares⟩
    · cases drawn
    · cases drawn
  | ok =>
    have saves := saves_of_save writer.settings saved
    have holds := holds_save writer.settings faithful saved
    rw [draw_of_saved drawable saved]
    refine ⟨⟨fun _ => ⟨empty, saves⟩, fun _ => rfl⟩, fun absent => absurd absent empty,
      fun error failed => ?_, fun _ => ⟨rfl, holds⟩, spares⟩
    cases failed

end

/-! ## Drawings one after the other -/

structure History where
  outcomes : List (Except DrawingError Unit)
  writer : DotWriter

section
variable {m : Type → Type} [Monad m]

def drawNext (host : Host m) (history : History) (graph : Graph) : m History := do
  let (outcome, writer) ← draw host history.writer graph
  return ⟨history.outcomes ++ [outcome], writer⟩

def drawEach (host : Host m) (settings : DrawingSettings) (graphs : List Graph) : m History :=
  graphs.foldlM (drawNext host) ⟨[], start settings⟩

end

theorem drawEach_concat (host : Host (StateM World)) (settings : DrawingSettings)
    (graphs : List Graph) (graph : Graph) (world : World) :
    drawEach host settings (graphs ++ [graph]) world =
      drawNext host (drawEach host settings graphs world).1 graph
        (drawEach host settings graphs world).2 := by
  rw [drawEach, List.foldlM_append, bind_apply, List.foldlM_cons, bind_apply, List.foldlM_nil]
  rfl

/-- The writer remembers the path from the first success on, and only the file that the path leads to
has been touched. -/
structure Recorded (files : Files World File) (settings : DrawingSettings) (before : World)
    (run : History × World) : Prop where
  keeps : run.1.writer.settings = settings
  unwritten : .ok () ∉ run.1.outcomes → run.1.writer.written = none
  written : .ok () ∈ run.1.outcomes → run.1.writer.written = some settings.path
  spares : files.Spares settings.path before run.2

section
variable {files : Files World File}

theorem recorded_start (files : Files World File) (settings : DrawingSettings) (world : World) :
    Recorded files settings world (⟨[], start settings⟩, world) :=
  ⟨rfl, fun _ => rfl, fun drawn => absurd drawn List.not_mem_nil, .refl ..⟩

theorem Recorded.next {settings : DrawingSettings} {before between : World} {history : History}
    {graph : Graph} (recorded : Recorded files settings before (history, between))
    (draws : Draws host files history.writer graph between (draw host history.writer graph between)) :
    Recorded files settings before (drawNext host history graph between) := by
  rw [drawNext, bind_apply]
  generalize draw host history.writer graph between = drawn at draws
  obtain ⟨⟨outcome, writer⟩, after⟩ := drawn
  obtain ⟨keeps, unwritten, written, spares⟩ := recorded
  have spares' : files.Spares settings.path before after := spares.trans (keeps ▸ draws.spares)
  cases outcome with
  | error error =>
    obtain rfl : writer = history.writer := draws.failed error rfl
    have same : .ok () ∈ history.outcomes ++ [.error error] ↔ .ok () ∈ history.outcomes := by simp
    exact ⟨keeps, fun none => unwritten (same.not.mp none), fun one => written (same.mp one), spares'⟩
  | ok =>
    obtain ⟨rfl, -⟩ := draws.written rfl
    have last : .ok () ∈ history.outcomes ++ [.ok ()] := List.mem_append_right _ (.head _)
    exact ⟨keeps, fun none => absurd last none,
      fun _ => congrArg (fun kept => some (DrawingSettings.path kept)) keeps, spares'⟩

end

/-- A failed drawing leaves the writer as it is, a refused one also leaves the world, and one that
succeeds leaves the graph's text at the path, whatever has been drawn before. -/
theorem drawings_recorded {files : Files World File} (faithful : host.Faithful files)
    (settings : DrawingSettings) (world : World) (graphs : List Graph) :
    let run := drawEach host settings graphs world
    Recorded files settings world run ∧
      ∀ graph,
        let drawn := draw host run.1.writer graph run.2
        drawEach host settings (graphs ++ [graph]) world =
            (⟨run.1.outcomes ++ [drawn.1.1], drawn.1.2⟩, drawn.2) ∧
          Draws host files run.1.writer graph run.2 drawn := by
  intro run
  refine ⟨?_, fun graph => ⟨drawEach_concat host settings graphs graph world, ?_⟩⟩
  · subst run
    -- From the end of the list, where the last drawing is made.
    induction graphs using List.reverseRecOn with
    | nil => exact recorded_start files settings world
    | append_singleton graphs graph ih =>
      rw [drawEach_concat]
      exact ih.next (draw_draws faithful ..)
  · exact draw_draws faithful run.1.writer graph run.2

theorem drawings_recorded_afterRefusal :
    (Host.ofDisk .empty).Faithful Disk.files ∧
      ∃ disk run,
        disk = (Disk.empty.put ["work", "graphviz"] .directory).put ["work", "graphviz", "old.gv"]
          (.file "kept".toUTF8) ∧
        drawEach (Host.ofDisk .empty) {} [⟨[], []⟩, ⟨[⟨"0", "x"⟩], []⟩] disk = run ∧
        run.1.outcomes = [.error .emptyGraph, .ok ()] ∧
        run.1.writer.written = some "graphviz/ast.gv" ∧
        Disk.files.Holds run.2 "graphviz/ast.gv" (Graph.dotText ⟨[⟨"0", "x"⟩], []⟩).toUTF8 ∧
        Disk.files.content run.2 ["work", "graphviz", "old.gv"] = some "kept".toUTF8 := by
  have faithful := Host.ofDisk_faithful .empty
  have path : DrawingSettings.path {} = "graphviz/ast.gv" := by decide +kernel
  let graph : Graph := ⟨[⟨"0", "x"⟩], []⟩
  obtain ⟨disk, given⟩ : ∃ disk, disk = (Disk.empty.put ["work", "graphviz"] .directory).put
    ["work", "graphviz", "old.gv"] (.file "kept".toUTF8) := ⟨_, rfl⟩
  have led : Disk.files.leads disk (DrawingSettings.path {}) = some ["work", "graphviz", "ast.gv"] := by
    rw [given, path]
    decide +kernel
  have held : Disk.files.content disk ["work", "graphviz", "old.gv"] = some "kept".toUTF8 := by
    rw [given]
    rfl
  -- For any content, so that the text of the drawing need not be computed.
  have saves (content : ByteArray) :
      (Host.ofDisk .empty).Saves "graphviz" (DrawingSettings.path {}) content disk := by
    rw [given, path]
    constructor
    · decide +kernel
    · rfl
  have refused : drawEach (Host.ofDisk .empty) {} [⟨[], []⟩] disk =
      (⟨[.error .emptyGraph], start {}⟩, disk) := rfl
  have recorded := (drawings_recorded faithful {} disk ([⟨[], []⟩] ++ [graph])).1
  have next := (drawings_recorded faithful {} disk [⟨[], []⟩]).2 graph
  rw [refused] at next
  obtain ⟨goesOn, draws⟩ := next
  have drawn := draws.succeeds.mpr ⟨List.cons_ne_nil _ _, saves graph.dotText.toUTF8⟩
  have holds := (draws.written drawn).2
  rw [goesOn] at recorded
  refine ⟨faithful, disk, _, given, goesOn, ?_, ?_, ?_, ?_⟩
  · rw [drawn]
    rfl
  · rw [(draws.written drawn).1]
    exact congrArg some path
  · rw [← path]
    exact holds
  · refine (recorded.spares.content ["work", "graphviz", "old.gv"] ?_).trans held
    rw [recorded.spares.leads _ _ led]
    decide

end DotWriter

end TypedLisp
