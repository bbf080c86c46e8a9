import TypedLisp.CommandLine.Session

/-! The program: its command line on the machine it runs on. -/

set_option autoImplicit false

namespace TypedLisp

def fileError : IO.Error → FileError
  | .noFileOrDirectory .. => .noEntry
  | .alreadyExists .. => .alreadyExists
  | .inappropriateType _ 21 _ => .isDirectory
  | .inappropriateType _ _ _ => .notDirectory
  | error => .other (toString error)

def attempt {α : Type} (action : IO α) : IO (Except FileError α) := do
  match ← action.toBaseIO with
  | .ok result => return .ok result
  | .error error => return .error (fileError error)

partial def readAll (stream : IO.FS.Stream) (read : ByteArray) : IO ByteArray := do
  let chunk ← stream.read 65536
  if chunk.isEmpty then return read
  readAll stream (read ++ chunk)

def machine : Host IO where
  readInput := attempt do readAll (← IO.getStdin) .empty
  readFile path := attempt (IO.FS.readBinFile path)
  createDirectories path := attempt (IO.FS.createDirAll path)
  writeFile path content := attempt (IO.FS.writeBinFile path content)

def usage : String :=
  "Usage: mlisp [FILE] [-e|--expr SOURCE] [--tokens] [--dot [DIR]] [--no-tui]"

end TypedLisp

open TypedLisp in
def main (arguments : List String) : IO UInt32 := do
  match CommandLine.parseArguments arguments with
  | .error .help =>
      IO.println usage
      return 0
  | .error .usage =>
      IO.eprintln usage
      return 2
  | .ok options =>
      let response ← CommandLine.run machine options
      IO.print response.output
      IO.eprint response.errorOutput
      return response.exitCode.toUInt32
