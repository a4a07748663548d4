import Tabula.Folder
import Tabula.Request
import Tabula.Shell

/-!
# The program

What the program writes and returns.  It is given its arguments, the folder in which it begins, and
its input.
-/

namespace Tabula

/-- How the program ends. -/
structure Ending where
  written : Output
  code : UInt8
deriving DecidableEq

namespace Program

/-- What is written of causes, the outermost first; several are numbered. -/
def showCauses : List String → String
  | [cause] => "    " ++ cause ++ "\n"
  | causes =>
    String.join (causes.zipIdx.map fun (cause, i) =>
      "    " ++ toString i ++ ": " ++ cause ++ "\n")

/-- The end of a program that could not read its configuration. -/
def refuse (path : String) (causes : List String) : Ending :=
  ⟨{ err := "Error: loading config from " ++ path ++ "\n\nCaused by:\n" ++ showCauses causes }, 1⟩

/-- Why a configuration was not read, the outermost cause first. -/
def causes (fault : FileFault) : List String :=
  if fault.isLate then [(Fault.configuration fault.message).message]
  else [(Fault.inputOutput fault.message).message, fault.message]

/-- The configuration that was found at a path. -/
def loadConfig (path : String) (found : Except FileFault String) : Except Ending Config :=
  match found with
  | .error fault => .error (refuse path (causes fault))
  | .ok text =>
    match Config.load text.toList with
    | .ok config => .ok config
    | .error fault => .error (refuse path [fault.message])

/-- The shell that begins with what was found at the path of its configuration, if it has one. -/
def begin (config : Option (String × Except FileFault String)) : Except Ending Shell := do
  let config ←
    match config with
    | some (path, found) => loadConfig path found
    | none => pure {}
  match Shell.start config with
  | .ok shell => return shell
  | .error fault => .error ⟨{ err := "Error: " ++ fault.message ++ "\n" }, 1⟩

/-- What is written where the arguments ask for nothing that there is. -/
def usage : Ending :=
  ⟨{ err := "Usage: aiondb shell [--config <CONFIG>] | aiondb version\n" }, 2⟩

/-- All that the program does with an input that is known from the beginning. -/
def run (clocks : Nat → Calendar.Clock) (folder : Folder) (arguments : List String)
    (input : String) : Ending :=
  match Request.ofArguments? arguments with
  | none => usage
  | some .version => ⟨{ out := Shell.version }, 0⟩
  | some .versionOption => ⟨{ out := "aiondb " ++ Shell.versionNumber ++ "\n" }, 0⟩
  | some (.shell path) =>
    match begin (path.map fun path => (path, folder.read path)) with
    | .error ending => ending
    | .ok shell =>
      let written := shell.session clocks 0 (Shell.lines input.toList)
      ⟨{ out := Shell.greeting } ++ written, 0⟩

end Program

end Tabula
