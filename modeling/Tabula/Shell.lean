import Tabula.Service
import Tabula.Text.Blank

/-!
# The interactive shell

The shell gathers lines until one ends in a semicolon and sends what it gathered as one batch.  A
line that begins with a point where nothing was gathered is a command to the shell itself.

`Shell.step` takes one line; `Shell.session` is what a whole input makes the shell write.
-/

namespace Tabula

/-- What is written to the two outputs of a program. -/
structure Output where
  out : String := ""
  err : String := ""
deriving DecidableEq, Repr

/-- One output after another. -/
def Output.append (a b : Output) : Output :=
  ⟨a.out ++ b.out, a.err ++ b.err⟩

instance : Append Output :=
  ⟨Output.append⟩

/-- The shell between two lines. -/
structure Shell where
  service : Service
  /-- The lines of a batch that has not ended. -/
  pending : String := ""
deriving DecidableEq

namespace Shell

/-- The version of the program. -/
def versionNumber : String :=
  "0.1.0"

/-- The program with its version. -/
def version : String :=
  "aiondb v" ++ versionNumber ++ "\n"

/-- What is shown before the first prompt. -/
def greeting : String :=
  version ++ "Type '.help' for help, '.exit' to quit\n\n"

/-- What `.help` shows. -/
def help : String :=
  "\nStatements end with ';' and may span several lines.\n\nCommands:\n" ++
  "  .tables   list tables\n  .help     show this help\n  .exit     quit\n\n"

/-- The name of the connection over which the shell sends its batches. -/
def connectionName : String :=
  "shell"

/-- A shell that is connected to a new service. -/
def start (config : Config) : Except Fault Shell := do
  return { service := ← (← Service.start config).connect connectionName }

/-- What is shown before a line is read. -/
def prompt (s : Shell) : String :=
  if s.pending.isEmpty then "aiondb> " else "     -> "

/-- A text on a line of its own. -/
def onLine (s : String) : String :=
  s ++ "\n"

/-- What a reply looks like. -/
def showReply : Reply → Output
  | .result lastId n =>
    { out := onLine ("ok: last id " ++ toString lastId ++ ", " ++ toString n ++
        " row(s) affected") }
  | .rows header rows =>
    let lines := (header :: rows).map fun cells => onLine (String.intercalate "\t" cells)
    { out := String.join lines ++ onLine ("(" ++ toString rows.length ++ " row(s))") }
  | .fault message => { err := onLine ("error: " ++ message) }

/-- What replies look like. -/
def showReplies (replies : List Reply) : Output :=
  replies.foldl (fun o r => o ++ showReply r) {}

/-- What a command other than `.exit` shows. -/
def command (s : Shell) (word : String) : Output :=
  if word == ".help" then { out := help }
  else if word == ".tables" then { out := String.join (s.service.catalog.names.map onLine) }
  else { err := onLine ("unknown command: " ++ word) }

/-- Sends what was gathered, over the connection that the shell keeps open as long as it runs. -/
def send (clock : Calendar.Clock) (s : Shell) : Shell × Output :=
  match s.service.batch? clock connectionName s.pending with
  | some (service, replies) => ({ service }, showReplies replies)
  | none =>
    -- does not arise, as the connection is open (`Shell.Ready.send`)
    ({ s with pending := "" }, {})

/-- Takes a line with its end.  There is no shell after the line that leaves it. -/
def step (clock : Calendar.Clock) (line : String) (s : Shell) : Option Shell × Output :=
  let input := Text.trim line.toList
  if s.pending.isEmpty && input.head? == some '.' then
    let word := String.ofList input
    if word == ".exit" || word == ".quit" then (none, {}) else (some s, s.command word)
  else
    let gathered := { s with pending := s.pending ++ line }
    if input.getLast? == some ';' then
      let (next, shown) := gathered.send clock
      (some next, shown)
    else (some gathered, {})

/-- The lines of a text, each with its end. -/
def lines (text : List Char) : List String :=
  go [] text
where
  /-- The lines of a text whose first line has begun. -/
  go (begun : List Char) : List Char → List String
    | [] => if begun.isEmpty then [] else [String.ofList begun.reverse]
    | c :: rest =>
      if c == '\n' then String.ofList (c :: begun).reverse :: go [] rest
      else go (c :: begun) rest

/-- What the shell writes while it takes lines, prompts included.  The first of them has the number
`i`, by which it has its clock. -/
def session (clocks : Nat → Calendar.Clock) : Nat → List String → Shell → Output
  | _, [], s => { out := s.prompt }
  | i, line :: rest, s =>
    match s.step (clocks i) line with
    | (none, shown) => { out := s.prompt } ++ shown
    | (some next, shown) => { out := s.prompt } ++ shown ++ session clocks (i + 1) rest next

end Shell

end Tabula
