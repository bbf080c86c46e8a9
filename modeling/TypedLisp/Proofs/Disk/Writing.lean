import TypedLisp.Host

/-! What is written is there to be read.

A path leads through directories only, and a file is never written over one. So the
path leads to the same location after the file has been written there.
-/

set_option autoImplicit false

namespace TypedLisp

namespace Disk

variable {disk after : Disk} {location : Location} {entry : Entry} {path : String}

theorem lookup_filter_ne {other : Location} (differ : other ≠ location)
    (entries : List (Location × Entry)) :
    (entries.filter fun (listed, _) => listed ≠ location).lookup other = entries.lookup other := by
  induction entries with
  | nil => rfl
  | cons first entries ih =>
    obtain ⟨listed, entry⟩ := first
    by_cases same : listed = location
    · rw [List.filter_cons_of_neg (by simpa using same), ih, List.lookup_cons,
        beq_eq_false_iff_ne.mpr (same ▸ differ)]
    · rw [List.filter_cons_of_pos (by simpa using same), List.lookup_cons, List.lookup_cons, ih]

theorem entryAt?_put_of_ne {other : Location} (differ : other ≠ location) :
    (disk.put location entry).entryAt? other = disk.entryAt? other := by
  unfold entryAt? put
  rw [List.lookup_cons, beq_eq_false_iff_ne.mpr differ]
  simp only [lookup_filter_ne differ]

theorem entryAt?_of_follow {next : Location} {name : String}
    (led : disk.follow location name = .ok next) : disk.entryAt? location = some .directory := by
  unfold follow at led
  split at led
  · cases led
  · cases led
  next directory => exact directory

section
variable (noDirectory : disk.entryAt? location ≠ some .directory)
include noDirectory

theorem follow_put {other next : Location} {name : String}
    (led : disk.follow other name = .ok next) :
    (disk.put location entry).follow other name = .ok next := by
  have directory := entryAt?_of_follow led
  have differ : other ≠ location := by
    rintro rfl
    exact noDirectory directory
  unfold follow at led ⊢
  rwa [entryAt?_put_of_ne differ]

theorem follow_all_put {names : List String} {other next : Location}
    (led : names.foldlM disk.follow other = .ok next) :
    names.foldlM (disk.put location entry).follow other = .ok next := by
  induction names generalizing other with
  | nil => exact led
  | cons name names ih =>
    rw [List.foldlM_cons] at led ⊢
    cases first : disk.follow other name with
    | error error =>
      rw [first] at led
      cases led
    | ok middle =>
      rw [first] at led
      rw [follow_put noDirectory first]
      exact ih led

theorem locate_put {next : Location} (located : disk.locate path = .ok next) :
    (disk.put location entry).locate path = .ok next := by
  unfold locate at located ⊢
  cases checked : checkPath path with
  | error error =>
    rw [checked] at located
    cases located
  | ok =>
    rw [checked] at located
    exact follow_all_put noDirectory located

end

theorem ne_nil_of_not_directory (noDirectory : disk.entryAt? location ≠ some .directory) :
    location ≠ [] := by
  rintro rfl
  exact noDirectory rfl

/-- Everything that a write looks at before it puts the file in its place. -/
theorem write_eq_ok {content : ByteArray} (written : disk.write path content = .ok after) :
    ∃ location, disk.locate path = .ok location ∧ disk.entryAt? location ≠ some .directory ∧
      endsWithSlash path = false ∧ after = disk.put location (.file content) := by
  unfold write at written
  cases located : disk.locate path with
  | error error =>
    rw [located] at written
    cases written
  | ok location =>
    rw [located] at written
    simp only [bind, Except.bind] at written
    split at written
    · cases written
    next noDirectory =>
      split at written
      · cases written
      next noSlash =>
        exact ⟨location, rfl, noDirectory, by simpa using noSlash, (Except.ok.inj written).symm⟩

end Disk

/-! ## Hosts -/

/-- A host whose reads leave all files as they are, and which has written what it says it has. -/
structure Host.Honest {World : Type} (host : Host (StateM World))
    (held : World → String → Except FileError ByteArray) : Prop where
  readInput : ∀ world, held (host.readInput world).2 = held world
  readFile : ∀ path world, held (host.readFile path world).2 = held world
  writeFile : ∀ path content world, (host.writeFile path content world).1 = .ok () →
    held (host.writeFile path content world).2 path = .ok content

end TypedLisp
