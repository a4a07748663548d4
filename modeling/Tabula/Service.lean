import Tabula.Config
import Tabula.Connection

/-!
# Services

A service executes batches that come over connections, one after the other, on one catalog.  It
listens at one endpoint until it is stopped; stopping is final.  Connections that are open then are
served further, unless the service waits for them to be closed.
-/

namespace Tabula

/-- A catalog, and who is connected to it. -/
structure Service where
  config : Config
  catalog : Catalog := {}
  listening : Bool := false
  stopped : Bool := false
  /-- Whether a client can still connect. -/
  endpointOpen : Bool := true
  /-- Open connections by name. -/
  connections : List (String × Connection) := []
deriving DecidableEq

namespace Service

/-- A service with an empty catalog, which does not listen yet. -/
def new (config : Config) : Except Fault Service := do
  config.validate
  return { config }

/-- Begins to accept connections, which can be done once and not after a stop. -/
def listen (s : Service) : Except Fault Service :=
  if s.stopped then .error (.connection "engine is stopped")
  else if s.listening then .error (.connection "engine is already listening")
  else .ok { s with listening := true }

/-- A service that listens. -/
def start (config : Config) : Except Fault Service := do
  (← new config).listen

/-- Executes a batch without a connection. -/
def execute (clock : Calendar.Clock) (text : String) (s : Service) : Service × Outcome :=
  let o := s.catalog.runBatch clock text
  ({ s with catalog := o.catalog }, o)

/-- The connections without those of a name. -/
def without (name : String) (s : Service) : List (String × Connection) :=
  s.connections.filter (·.1 != name)

/-- Opens a connection, in the place of one of the same name. -/
def connect (name : String) (s : Service) : Except Fault Service :=
  if s.endpointOpen then
    .ok { s with
      connections := s.without name ++ [(name, { capacity := max 1 s.config.channelCapacity })] }
  else .error (.connection "endpoint closed")

/-- The replies to a batch that comes over a connection, if that is open. -/
def batch? (clock : Calendar.Clock) (name text : String) (s : Service) :
    Option (Service × List Reply) :=
  match s.connections.lookup name with
  | none => none
  | some connection =>
    let (s, o) := s.execute clock text
    let (connection, replies) := connection.answer o
    some ({ s with connections := s.without name ++ [(name, connection)] }, replies)

/-- The last reply to a batch that comes over a connection, if that is open. -/
def query? (clock : Calendar.Clock) (name text : String) (s : Service) :
    Option (Service × Reply) :=
  (s.batch? clock name text).map fun (s, replies) =>
    (s, replies.getLast?.getD (.result 0 0))

/-- Closes a connection, and says whether it was open. -/
def close (name : String) (s : Service) : Service × Bool :=
  ({ s with connections := s.without name }, (s.connections.lookup name).isSome)

/-- Closes the endpoint, which stops a service that listens there. -/
def closeEndpoint (s : Service) : Service :=
  { s with endpointOpen := false, stopped := s.stopped || s.listening }

/-- Stops the service.  One that waits for its clients stops when the last of them has hung up, and
this is how it stands then, with no connection left.  That they do hang up is taken for granted:
while one of them stays, the stop does not end. -/
def stop (s : Service) : Service :=
  { s with
    stopped := true
    endpointOpen := false
    connections := if s.config.shutdown.waits then [] else s.connections }

/-- What a further wait for clients comes to.  It is only asked for once the endpoint is closed. -/
def accept (_ : Service) : Fault :=
  .connection "endpoint closed"

end Service

end Tabula
