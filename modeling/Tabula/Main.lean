import Std.Time.DateTime.Timestamp
import Tabula.Program

/-!
# The command line

Reads lines, files and the time, and writes what the program says.
-/

namespace Tabula

/-- What time it is. -/
def readMoment : IO Calendar.Moment := do
  let now := (← Std.Time.Timestamp.now).toNanosecondsSinceUnixEpoch.toInt
  return ⟨now / 1000000000, (now % 1000000000).toNat, 0⟩

/-- The fault that a failed reading stands for. -/
def fileFault : IO.Error → FileFault
  | .permissionDenied _ _ _ => .denied
  | .inappropriateType _ code _ => if code = 21 then .isFolder else .notFolder
  | .invalidArgument _ _ _ => .nameTooLong
  | _ => .missing

/-- The text of a file.  Bytes that are no text are read as nothing. -/
def readFile (path : String) : IO (Except FileFault String) := do
  try
    return .ok ((String.fromUTF8? (← IO.FS.readBinFile path)).getD "")
  catch e =>
    return .error (fileFault e)

/-- Writes to both outputs. -/
def write (o : Output) : IO Unit := do
  let out ← IO.getStdout
  out.putStr o.out
  out.flush
  (← IO.getStderr).putStr o.err

/-- Takes lines until the input or the shell ends. -/
partial def converse (shell : Shell) : IO Unit := do
  write { out := shell.prompt }
  let line ← (← IO.getStdin).getLine
  unless line.isEmpty do
    let (next, shown) := shell.step (.starting (← readMoment)) line
    write shown
    match next with
    | some shell => converse shell
    | none => return ()

end Tabula

open Tabula in
def main (arguments : List String) : IO UInt32 := do
  match Request.ofArguments? arguments with
  | some (.shell path) =>
    let config ← match path with
      | some path => do pure (some (path, ← readFile path))
      | none => pure none
    match Program.begin config with
    | .ok shell =>
      write { out := Shell.greeting }
      converse shell
      return 0
    | .error ending =>
      write ending.written
      return ending.code.toUInt32
  | _ =>
    let ending := Program.run (fun _ => .starting ⟨0, 0, 0⟩) {} arguments ""
    write ending.written
    return ending.code.toUInt32
