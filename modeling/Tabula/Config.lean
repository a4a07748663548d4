import Tabula.Fault
import Tabula.Json
import Tabula.Number.Decimal

/-!
# Configurations

A configuration is read from JSON: an object with any of its fields, the others at their defaults,
or an array of the fields in order, the last of which may be missing.  Fields of other names are
passed over, and no field may be given twice.  Sizes are whole numbers below 2 to the 64th, written
as digits alone; a policy is its name, or an object that holds null under that name.
-/

namespace Tabula

/-- What a service that stops does about open connections. -/
inductive Shutdown where
  /-- They are served until their clients hang up. -/
  | detach
  /-- It waits until they are closed. -/
  | drain
deriving DecidableEq, Repr

namespace Shutdown

/-- The name of a policy. -/
def name : Shutdown → String
  | .detach => "Detach"
  | .drain => "Drain"

/-- Whether stopping waits for clients to hang up. -/
def waits : Shutdown → Bool
  | .detach => false
  | .drain => true

/-- The policy of a name. -/
def ofName? (points : List Nat) : Option Shutdown :=
  [Shutdown.detach, .drain].find? fun policy => Json.points policy.name == points

end Shutdown

/-- What a service is started with. -/
structure Config where
  shutdown : Shutdown := .detach
  /-- How many connections may wait to be accepted. -/
  acceptBacklog : Nat := 16
  /-- How much may be under way in each direction of a connection. -/
  channelCapacity : Nat := 64
  logStatements : Bool := true
deriving DecidableEq, Repr

namespace Config

/-! ## Reading -/

/-- The policy that a value stands for. -/
def readShutdown : Json → Option Shutdown
  | .string points => Shutdown.ofName? points
  | .object [(points, .null)] => Shutdown.ofName? points
  | _ => none

/-- The size that a value stands for. -/
def readSize : Json → Option Nat
  | .number written =>
    if written.all Char.isDigit && Number.ofDigits written < UInt64.size then
      some (Number.ofDigits written)
    else none
  | _ => none

/-- The truth value that a value stands for. -/
def readFlag : Json → Option Bool
  | .bool b => some b
  | _ => none

/-- A field that is given at most once. -/
def field {α : Type} (fields : List (List Nat × Json)) (key : String) (read : Json → Option α)
    (absent : α) : Option α :=
  match fields.filter (·.1 == Json.points key) with
  | [] => some absent
  | [(_, value)] => read value
  | _ => none

/-- A place in an array that may be too short for it. -/
def item {α : Type} (items : List Json) (position : Nat) (read : Json → Option α) (absent : α) :
    Option α :=
  match items[position]? with
  | some value => read value
  | none => some absent

/-- The configuration that a value describes. -/
def ofJson? : Json → Option Config
  | .object fields =>
    if fields.all fun (key, _) => Json.isText key then do
      return {
        shutdown := ← field fields "shutdown" readShutdown .detach
        acceptBacklog := ← field fields "accept_backlog" readSize 16
        channelCapacity := ← field fields "channel_capacity" readSize 64
        logStatements := ← field fields "log_statements" readFlag true }
    else none
  | .array items =>
    if items.length ≤ 4 then do
      return {
        shutdown := ← item items 0 readShutdown .detach
        acceptBacklog := ← item items 1 readSize 16
        channelCapacity := ← item items 2 readSize 64
        logStatements := ← item items 3 readFlag true }
    else none
  | _ => none

/-- The configuration that a text describes, valid or not. -/
def read? (text : List Char) : Option Config := do
  ofJson? (← Json.read? text)

/-- Refuses a size of zero. -/
def validate (c : Config) : Except Fault Unit :=
  if c.acceptBacklog = 0 then .error (.configuration "accept_backlog must be at least 1")
  else if c.channelCapacity = 0 then .error (.configuration "channel_capacity must be at least 1")
  else .ok ()

/-- The valid configuration that a text describes.  What is said of a text that describes none
stands for the message of a reader of JSON, which says what is wrong with the text and where. -/
def load (text : List Char) : Except Fault Config :=
  match read? text with
  | none => .error (.configuration "not a configuration")
  | some c => do
    c.validate
    return c

/-! ## Writing -/

/-- The text of a configuration: an object with a field on each line. -/
def text (c : Config) : String :=
  "\x7b\n  \"shutdown\": \"" ++ c.shutdown.name ++
  "\",\n  \"accept_backlog\": " ++ toString c.acceptBacklog ++
  ",\n  \"channel_capacity\": " ++ toString c.channelCapacity ++
  ",\n  \"log_statements\": " ++ (if c.logStatements then "true" else "false") ++ "\n\x7d"

end Config

end Tabula
