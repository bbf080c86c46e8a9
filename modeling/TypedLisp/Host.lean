import TypedLisp.Disk

/-! What a program asks of the machine it runs on. -/

set_option autoImplicit false

namespace TypedLisp

/-- The machine's services; each reports whether it did what was asked. -/
structure Host (m : Type → Type) where
  readInput : m (Except FileError ByteArray)
  readFile : String → m (Except FileError ByteArray)
  createDirectories : String → m (Except FileError Unit)
  writeFile : String → ByteArray → m (Except FileError Unit)

def Host.ofDisk (input : ByteArray) : Host (StateM Disk) where
  readInput := pure (.ok input)
  readFile path := fun disk => (disk.read path, disk)
  createDirectories path := fun disk => disk.createDirectories path
  writeFile path content := fun disk =>
    match disk.write path content with
    | .ok written => (.ok (), written)
    | .error error => (.error error, disk)

end TypedLisp
