import Tabula.Text.Prefix

/-!
# Requests

What the arguments of the program ask for.  If the first argument asks for the version, whatever
follows does not matter.  Otherwise it is a command; its options follow, and two hyphens may stand at
the end.
-/

namespace Tabula

/-- What the command line asks for. -/
inductive Request where
  | version
  /-- The version in the form in which an option asks for it. -/
  | versionOption
  /-- A shell, perhaps with a configuration from a file. -/
  | shell (configPath : Option String)
deriving DecidableEq, Repr

namespace Request

/-- Whether an argument asks for the version: the long option, or the short one with anything
attached. -/
def asksVersion (argument : String) : Bool :=
  argument == "--version" || (Text.rest? "-V" argument).isSome

/-- Whether no argument is left but two hyphens. -/
def isEnd : List String → Bool
  | [] => true
  | ["--"] => true
  | _ => false

/-- Whether an argument can be the value of the option before it: it is not an option itself.  A
single hyphen is a value. -/
def isValue (argument : String) : Bool :=
  argument != "" && (argument == "-" || (Text.rest? "-" argument).isNone)

/-- The request for a shell with the options that follow. -/
def ofShellOptions? : List String → Option Request
  | "--config" :: path :: rest =>
    if isValue path && isEnd rest then some (.shell (some path)) else none
  | rest =>
    if isEnd rest then some (.shell none)
    else
      match rest with
      | [] => none
      | argument :: rest =>
        match Text.rest? "--config=" argument with
        | some path => if path != "" && isEnd rest then some (.shell (some path)) else none
        | none => none

/-- The request of arguments. -/
def ofArguments? : List String → Option Request
  | [] => none
  | first :: rest =>
    if asksVersion first then some .versionOption
    else if first == "version" then if isEnd rest then some .version else none
    else if first == "shell" then ofShellOptions? rest
    else none

end Request

end Tabula
