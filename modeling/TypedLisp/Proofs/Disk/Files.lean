import TypedLisp.Proofs.Disk.Writing

/-! Which files an action touches.

Files are told apart by where they are, since several paths may lead to one. A host
that does what it reports makes directories without touching a file, and writes to
no file but the one that the path leads to. The disk is such a host: a directory is
only made where nothing is, and a path that leads somewhere still leads there after.
-/

set_option autoImplicit false

namespace TypedLisp

/-- The files of a world: where paths lead, and what the files there hold. -/
structure Files (World File : Type) where
  leads : World → String → Option File
  content : World → File → Option ByteArray

namespace Files

variable {World File : Type} {files : Files World File} {path : String} {before between after : World}

def Holds (files : Files World File) (world : World) (path : String) (content : ByteArray) : Prop :=
  ∃ file, files.leads world path = some file ∧ files.content world file = some content

/-- Every file but the one that the path leads to afterwards is as it was, and all paths lead where
they did. -/
structure Spares (files : Files World File) (path : String) (before after : World) : Prop where
  content : ∀ file, files.leads after path ≠ some file →
    files.content after file = files.content before file
  leads : ∀ other file, files.leads before other = some file → files.leads after other = some file

theorem Spares.refl (files : Files World File) (path : String) (world : World) :
    files.Spares path world world :=
  ⟨fun _ _ => rfl, fun _ _ led => led⟩

theorem Spares.trans (first : files.Spares path before between)
    (second : files.Spares path between after) : files.Spares path before after where
  content file other := by
    have other' : files.leads between path ≠ some file := fun led => other (second.leads path file led)
    rw [second.content file other, first.content file other']
  leads other file led := second.leads other file (first.leads other file led)

end Files

/-- A host that does what it reports, and does not touch other files whatever it reports. -/
structure Host.Faithful {World File : Type} (host : Host (StateM World)) (files : Files World File) :
    Prop where
  createDirectories : ∀ directory world path,
    files.Spares path world (host.createDirectories directory world).2
  writeFile : ∀ path content world,
    files.Spares path world (host.writeFile path content world).2
  written : ∀ path content world, (host.writeFile path content world).1 = .ok () →
    files.Holds (host.writeFile path content world).2 path content

namespace Disk

def files : Files Disk Location where
  leads disk path := (disk.locate path).toOption
  content disk location :=
    match disk.entryAt? location with
    | some (.file content) => some content
    | _ => none

variable {disk after : Disk} {path : String} {location : Location}

theorem leads_eq_some_iff : files.leads disk path = some location ↔ disk.locate path = .ok location := by
  simp only [files]
  cases disk.locate path <;> simp [Except.toOption]

theorem content_put_of_ne {entry : Entry} {other : Location} (differ : other ≠ location) :
    files.content (disk.put location entry) other = files.content disk other := by
  simp only [files, entryAt?_put_of_ne differ]

theorem makeDirectory_eq_ok (made : disk.makeDirectory path = .ok after) :
    ∃ location, disk.entryAt? location = none ∧ after = disk.put location .directory := by
  unfold makeDirectory at made
  cases located : disk.locate path with
  | error error =>
    rw [located] at made
    cases made
  | ok location =>
    rw [located] at made
    simp only [bind, Except.bind] at made
    split at made
    · cases made
    next absent => exact ⟨location, absent, (Except.ok.inj made).symm⟩

theorem spares_makeDirectory {directory : String} (made : disk.makeDirectory directory = .ok after)
    (path : String) : files.Spares path disk after := by
  obtain ⟨location, absent, rfl⟩ := makeDirectory_eq_ok made
  have noDirectory : disk.entryAt? location ≠ some .directory := by simp [absent]
  constructor
  · intro file _
    by_cases same : file = location
    · subst same
      simp only [files, absent, entryAt?_put disk file .directory (ne_nil_of_not_directory noDirectory)]
    · exact content_put_of_ne same
  · intro other file led
    rw [leads_eq_some_iff] at led ⊢
    exact locate_put noDirectory led

theorem spares_createAll (disk : Disk) (directories : List String) (path : String) :
    files.Spares path disk (disk.createAll directories).2 := by
  -- Whatever goes wrong, all that has been done to the disk is to make directories.
  fun_induction createAll disk directories with
  | case1 => exact .refl ..
  | case2 directory above made here => exact spares_makeDirectory here path
  | case3 directory above missing error partly failed ih =>
    rw [failed] at ih
    exact ih
  | case4 directory above missing prepared ready after made ih =>
    rw [ready] at ih
    exact ih.trans (spares_makeDirectory made path)
  | case5 directory above missing prepared ready error failed ih =>
    rw [ready] at ih
    exact ih
  | case6 => exact .refl ..

theorem spares_write {content : ByteArray} (written : disk.write path content = .ok after) :
    files.Spares path disk after := by
  obtain ⟨location, located, noDirectory, -, rfl⟩ := write_eq_ok written
  have leads : files.leads (disk.put location (.file content)) path = some location :=
    leads_eq_some_iff.mpr (locate_put noDirectory located)
  constructor
  · intro file other
    refine content_put_of_ne fun same => other ?_
    rw [leads, same]
  · intro other file led
    rw [leads_eq_some_iff] at led ⊢
    exact locate_put noDirectory led

theorem holds_write {content : ByteArray} (written : disk.write path content = .ok after) :
    files.Holds after path content := by
  obtain ⟨location, located, noDirectory, -, rfl⟩ := write_eq_ok written
  refine ⟨location, leads_eq_some_iff.mpr (locate_put noDirectory located), ?_⟩
  simp only [files, entryAt?_put disk location _ (ne_nil_of_not_directory noDirectory)]

end Disk

theorem Host.ofDisk_faithful (input : ByteArray) : (Host.ofDisk input).Faithful Disk.files where
  createDirectories directory disk path := by
    simp only [ofDisk, Disk.createDirectories]
    split
    · exact .refl ..
    · exact Disk.spares_createAll ..
  writeFile path content disk := by
    simp only [ofDisk]
    cases written : disk.write path content with
    | error error => exact .refl ..
    | ok after => exact Disk.spares_write written
  written path content disk reported := by
    simp only [ofDisk] at reported ⊢
    cases written : disk.write path content with
    | error error =>
      rw [written] at reported
      cases reported
    | ok after => exact Disk.holds_write written

end TypedLisp
