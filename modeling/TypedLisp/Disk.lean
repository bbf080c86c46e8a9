import TypedLisp.Path

/-! A tree of directories and files.

Paths are looked up name by name from the root or the working directory, and a
dot or two lead only out of directories. A failed operation changes nothing, but
creating directories keeps those that were made before the failure.
-/

set_option autoImplicit false

namespace TypedLisp

inductive FileError where
  | noEntry
  | alreadyExists
  | notDirectory
  | isDirectory
  | nameTooLong
  | nulByte
  | invalidText
  | other (reason : String)
  deriving Repr, DecidableEq

def FileError.message : FileError → String
  | .noEntry => "No such file or directory (os error 2)"
  | .alreadyExists => "File exists (os error 17)"
  | .notDirectory => "Not a directory (os error 20)"
  | .isDirectory => "Is a directory (os error 21)"
  | .nameTooLong => "File name too long (os error 36)"
  | .nulByte => "file name contained an unexpected NUL byte"
  | .invalidText => "stream did not contain valid UTF-8"
  | .other reason => reason

inductive Entry where
  | file (content : ByteArray)
  | directory

abbrev Location := List String

structure Disk where
  /-- All but the root, each location once. -/
  entries : List (Location × Entry)
  workingDirectory : Location

namespace Disk

def empty : Disk :=
  ⟨[(["work"], .directory)], ["work"]⟩

def entryAt? (disk : Disk) (location : Location) : Option Entry :=
  if location = [] then some .directory else disk.entries.lookup location

def put (disk : Disk) (location : Location) (entry : Entry) : Disk :=
  { disk with
    entries := (location, entry) :: disk.entries.filter fun (other, _) => other ≠ location }

theorem entryAt?_put (disk : Disk) (location : Location) (entry : Entry) (some : location ≠ []) :
    (disk.put location entry).entryAt? location = .some entry := by
  simp [put, entryAt?, some]

def nameLimit : Nat := 255
def pathLimit : Nat := 4095

def follow (disk : Disk) (location : Location) (name : String) : Except FileError Location :=
  match disk.entryAt? location with
  | none => .error .noEntry
  | some (.file _) => .error .notDirectory
  | some .directory =>
      if name = "." then .ok location
      else if name = ".." then .ok location.dropLast
      else if name.utf8ByteSize > nameLimit then .error .nameTooLong
      else .ok (location ++ [name])

def origin (disk : Disk) (path : String) : Location :=
  if Path.isAbsolute path then [] else disk.workingDirectory

def checkPath (path : String) : Except FileError Unit :=
  if path.toList.contains '\x00' then .error .nulByte
  else if path.isEmpty then .error .noEntry
  else if path.utf8ByteSize > pathLimit then .error .nameTooLong
  else .ok ()

/-- Where a path leads; nothing need be there. -/
def locate (disk : Disk) (path : String) : Except FileError Location := do
  checkPath path
  (Path.segments path).foldlM disk.follow (disk.origin path)

def endsWithSlash (path : String) : Bool :=
  path.toList.getLast? == some '/'

/-- What a path names. Only a directory may be named with a slash at the end. -/
def find (disk : Disk) (path : String) : Except FileError Entry := do
  let location ← disk.locate path
  match disk.entryAt? location with
  | none => .error .noEntry
  | some .directory => .ok .directory
  | some (.file content) =>
      if endsWithSlash path then .error .notDirectory else .ok (.file content)

def isDirectory (disk : Disk) (path : String) : Bool :=
  match disk.find path with
  | .ok .directory => true
  | _ => false

def read (disk : Disk) (path : String) : Except FileError ByteArray := do
  match ← disk.find path with
  | .directory => .error .isDirectory
  | .file content => .ok content

def makeDirectory (disk : Disk) (path : String) : Except FileError Disk := do
  let location ← disk.locate path
  match disk.entryAt? location with
  | some _ => .error .alreadyExists
  | none => .ok (disk.put location .directory)

def write (disk : Disk) (path : String) (content : ByteArray) : Except FileError Disk := do
  let location ← disk.locate path
  match disk.entryAt? location with
  | some .directory => .error .isDirectory
  | _ =>
      if endsWithSlash path then .error .isDirectory
      else .ok (disk.put location (.file content))

/-- A directory that could not be made is no failure where it already is one. -/
def tolerate (disk : Disk) (path : String) (error : FileError) : Except FileError Unit × Disk :=
  (if disk.isDirectory path then .ok () else .error error, disk)

/-- Makes the first directory, after those above it as far as they are missing. -/
def createAll (disk : Disk) : List String → Except FileError Unit × Disk
  | [] => (.ok (), disk)
  | path :: parents =>
      match disk.makeDirectory path with
      | .ok made => (.ok (), made)
      | .error .noEntry =>
          match disk.createAll parents with
          | (.error error, partly) => (.error error, partly)
          | (.ok (), prepared) =>
              match prepared.makeDirectory path with
              | .ok made => (.ok (), made)
              | .error error => prepared.tolerate path error
      | .error error => disk.tolerate path error

def createDirectories (disk : Disk) (path : String) : Except FileError Unit × Disk :=
  if path.isEmpty then (.ok (), disk) else disk.createAll (path :: Path.parents path)

end Disk

end TypedLisp
