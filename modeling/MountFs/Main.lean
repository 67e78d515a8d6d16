import MountFs.Program
import Std.Time.DateTime.Timestamp

/-!
# The executable

The outermost layer: it reads the arguments, the files they name, the standard input
and the clock, runs the program on them and writes what the run leaves behind.
Stores on the host start from an empty host, which ends with the run.
-/

namespace MountFs.Executable

/-- The failure of the host behind a failed read. -/
def hostErrorOf : IO.Error → HostError
  | .noFileOrDirectory _ _ _ => .notFound
  | .inappropriateType _ _ _ => .isADirectory
  | .alreadyExists _ _ _ => .taken
  | e => ⟨.other, toString e⟩

/-- What reading a file gives. -/
def readHost (path : String) : IO (Except HostError Bytes) := do
  try
    let bytes ← IO.FS.readBinFile path
    return .ok bytes.data.toList
  catch e => return .error (hostErrorOf e)

/-- The files that an invocation names, with what reading them gives. -/
def readNamed (inv : Invocation) : IO (List (String × Except HostError Bytes)) :=
  (inv.config.toList ++ inv.script.toList).mapM fun path => do return (path, ← readHost path)

/-- A reader of files that were read before. -/
def readerOf (files : List (String × Except HostError Bytes)) : Program.Reader := fun path =>
  match files.lookup path with
  | some result => result
  | none => .error .notFound

/-- All bytes of a stream. -/
partial def readAll (stream : IO.FS.Stream) (read : ByteArray) : IO ByteArray := do
  let more ← stream.read 4096
  if more.isEmpty then return read else readAll stream (read ++ more)

/-- The standard input, if the invocation reads it. -/
def readInput (inv : Invocation) : IO Bytes := do
  if inv.script.isSome then return []
  return (← readAll (← IO.getStdin) .empty).data.toList

/-- Run the program on the arguments and give its exit status. -/
def run (args : List String) : IO UInt32 := do
  let inv := (Invocation.parse args).toOption
  let files ← (inv.map readNamed).getD (pure [])
  let stdin ← (inv.map readInput).getD (pure [])
  let now := (← Std.Time.Timestamp.now).toSecondsSinceUnixEpoch.val.toNat
  let report := Program.run (readerOf files) (.bare []) (fun _ => now) args stdin
  IO.print report.stdout
  IO.eprint report.stderr
  match report.fatal with
  | some message => IO.eprintln message
  | none => pure ()
  if report.exit = 2 then IO.eprintln "error: unexpected arguments, --help lists them"
  return report.exit.toUInt32

end MountFs.Executable

/-- Run the program. -/
def main (args : List String) : IO UInt32 := MountFs.Executable.run args
