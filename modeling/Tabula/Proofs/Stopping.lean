import Tabula.Proofs.Exchange
import Tabula.Proofs.Reception

/-!
# Stopping a service

A service that listens is asked for one thing after the other: to open and close connections, to
answer batches, to listen again, to stop.  Stopping is final, and those who are connected when a
service stops that does not wait for them are served as if it had not.

`Engine` is a service with the threads of its reception, which move in any order.

* `Service.Kept.perform`: what holds of a service that was started, whatever it is asked for.
* `Service.Kept.run_served`: a service that has stopped answers only those it serves.
* `Engine.Shows.performs`, `Engine.Shows.goesOn`: whatever its threads do, an engine answers as a
  service does, and it does answer.
* `Service.stopped_for_good`: what stopping changes, and what it does not.
-/

namespace Tabula

/-! ## Algorithm -/

namespace Service

/-- What a service is asked for. -/
inductive Call where
  /-- To open a connection, over which the answer to an empty batch is waited for. -/
  | connect (name : String)
  /-- For the last reply to a batch that comes over a connection. -/
  | query (name text : String)
  /-- For all replies to a batch that comes over a connection. -/
  | batch (name text : String)
  | close (name : String)
  | stop
  | listen
  /-- To execute a batch without a connection. -/
  | execute (text : String)
deriving DecidableEq, Repr

/-- Whether a call only asks for what is there: the catalog and the open connections. -/
def Call.served : Call → Bool
  | .query _ _ => true
  | .batch _ _ => true
  | .close _ => true
  | .execute _ => true
  | .connect _ => false
  | .stop => false
  | .listen => false

/-- A call, and the times that its statements read. -/
structure Step where
  call : Call
  clock : Calendar.Clock

/-- What a call is answered by. -/
inductive Response where
  | connected (replies : List Reply)
  | reply (r : Reply)
  | replies (rs : List Reply)
  /-- Whether there was a connection to close. -/
  | closed (wasOpen : Bool)
  /-- Whether the service has stopped. -/
  | stopped (hasStopped : Bool)
  | listening
  | executed (frames : List Frame) (fault : Option Fault)
  | noConnection
  | refused (f : Fault)
deriving DecidableEq

/-- What a call changes, and what it is answered by. -/
def perform (s : Service) (step : Step) : Service × Response :=
  match step.call with
  | .connect name =>
    match s.connect name with
    | .error f => (s, .refused f)
    | .ok opened =>
      match opened.batch? step.clock name "" with
      | some (next, replies) => (next, .connected replies)
      | none => (opened, .noConnection)
  | .query name text =>
    match s.query? step.clock name text with
    | some (next, reply) => (next, .reply reply)
    | none => (s, .noConnection)
  | .batch name text =>
    match s.batch? step.clock name text with
    | some (next, replies) => (next, .replies replies)
    | none => (s, .noConnection)
  | .close name => ((s.close name).1, .closed (s.close name).2)
  | .stop => (s.stop, .stopped s.stop.stopped)
  | .listen =>
    match s.listen with
    | .error f => (s, .refused f)
    | .ok next => (next, .listening)
  | .execute text =>
    ((s.execute step.clock text).1,
      .executed (s.execute step.clock text).2.frames (s.execute step.clock text).2.fault)

/-- Performs one step after the other. -/
def run (s : Service) : List Step → Service × List Response
  | [] => (s, [])
  | step :: rest =>
    let (next, response) := s.perform step
    let (last, others) := next.run rest
    (last, response :: others)

/-- The responses to those steps that are served. -/
def servedOnly (steps : List Step) (responses : List Response) : List Response :=
  (steps.zip responses).filterMap fun (step, response) =>
    if step.call.served then some response else none

/-- A service with a new connection in the place of one of the same name. -/
def opened (s : Service) (name : String) : Service :=
  { s with
    connections := s.without name ++ [(name, { capacity := max 1 s.config.channelCapacity })] }

/-- A service with other answers to whether it listens, has stopped, and can be connected to. -/
def flagged (s : Service) (listening stopped endpointOpen : Bool) : Service :=
  { s with listening, stopped, endpointOpen }

/-- What holds of a service that was started, given whether it was stopped. -/
structure Kept (s : Service) (hasStopped : Bool) : Prop where
  reachable : s.Reachable
  listening : s.listening = true
  stopped : s.stopped = hasStopped
  endpointOpen : s.endpointOpen = !hasStopped
  drained : hasStopped = true → s.config.shutdown.waits = true → s.connections = []

end Service

/-- What stopping means to a service, given what it has been asked for since it was started. -/
structure Service.StopsForGood (config : Config) (before : List Service.Step) (t : Service) :
    Prop where
  /-- It never begins to listen again. -/
  listen : ∀ clock, ∃ f, t.perform ⟨.listen, clock⟩ = (t, .refused f)
  /-- Before the first stop it can be connected to. -/
  connect : (∀ step ∈ before, step.call ≠ .stop) → ∀ name clock,
    t.perform ⟨.connect name, clock⟩ = (t.opened name, .connected [])
  /-- After it nobody can connect, and to stop it again changes nothing. -/
  stopped : (∃ step ∈ before, step.call = .stop) → t.stopped = true ∧
    (∀ name clock, ∃ f, t.perform ⟨.connect name, clock⟩ = (t, .refused f)) ∧
    ∀ clock, t.perform ⟨.stop, clock⟩ = (t, .stopped true)
  /-- If it does not wait for its clients, it keeps them when it stops. -/
  clients : config.shutdown = .detach →
    t.stop.connections = t.connections ∧ t.stop.catalog = t.catalog
  /-- Whatever it is asked for then, it answers them as it would have without the stop. -/
  served : config.shutdown = .detach → ∀ after : List Service.Step,
    (t.stop.run after).1 = (t.run (after.filter (·.call.served))).1.stop ∧
      Service.servedOnly after (t.stop.run after).2 =
        (t.run (after.filter (·.call.served))).2
  /-- Stopped or not, it answers a batch over an open connection from its data alone. -/
  batch : ∀ name, (t.connections.lookup name).isSome = true → ∀ clock text,
    (t.perform ⟨.batch name text, clock⟩).2 = .replies (t.catalog.runBatch clock text).heard

/-- A service with the threads of its reception. -/
structure Engine where
  reception : Reception
  config : Config
  catalog : Catalog := {}
  connections : List (String × Connection) := []
deriving DecidableEq

namespace Engine

open Service (Step Response)

/-- An engine that listens. -/
def start (config : Config) : Except Fault Engine := do
  config.validate
  let reception ← Reception.listen { backlog := config.acceptBacklog }
  return { reception, config }

/-- What an engine has besides its reception, as a service. -/
def data (e : Engine) : Service :=
  { config := e.config, catalog := e.catalog, connections := e.connections }

/-- The engine with the catalog and the connections of a service. -/
def put (e : Engine) (s : Service) : Engine :=
  { e with catalog := s.catalog, connections := s.connections }

/-- What an engine may do when it is asked for something, and what its answer is.  The threads of
its reception move before it, and while it waits for them. -/
inductive Performs : Engine → Step → Engine → Response → Prop where
  | move {e last : Engine} {step : Step} {r : Reception} {response : Response} :
      e.reception.Move r → Performs { e with reception := r } step last response →
      Performs e step last response
  | serve {e : Engine} {step : Step} :
      step.call.served = true →
      Performs e step (e.put (e.data.perform step).1) (e.data.perform step).2
  /-- The connection is served, and the empty batch is answered. -/
  | connect {e : Engine} {name : String} {clock : Calendar.Clock} {r last : Reception}
      {opened next : Service} {replies : List Reply} :
      e.reception.knock = .ok r → r.Moves last → last.Settled e.reception.issued →
      e.reception.issued ∈ last.served → e.data.connect name = .ok opened →
      opened.batch? clock name "" = some (next, replies) →
      Performs e ⟨.connect name, clock⟩ ({ e with reception := last }.put next)
        (.connected replies)
  /-- The connection is dropped, and nobody answers. -/
  | lose {e : Engine} {name : String} {clock : Calendar.Clock} {r last : Reception} :
      e.reception.knock = .ok r → r.Moves last → last.Settled e.reception.issued →
      e.reception.issued ∉ last.served →
      Performs e ⟨.connect name, clock⟩ { e with reception := last }
        (.refused (.connection "engine closed the connection"))
  | shut {e : Engine} {name : String} {clock : Calendar.Clock} {f : Fault} :
      e.reception.knock = .error f → Performs e ⟨.connect name, clock⟩ e (.refused f)
  /-- The supervisor is waited for, if there is one.  Where the clients are waited for too, this is
  a stop that ends: they have hung up. -/
  | stop {e : Engine} {clock : Calendar.Clock} {last : Reception} :
      e.reception.halt.Moves last →
      (e.reception.supervised = true → last.supervisor = .ended) →
      Performs e ⟨.stop, clock⟩
        { e with
          reception := last
          connections := if e.config.shutdown.waits then [] else e.connections }
        (.stopped last.triggered)
  | listen {e : Engine} {clock : Calendar.Clock} {r : Reception} :
      e.reception.listen = .ok r →
      Performs e ⟨.listen, clock⟩ { e with reception := r } .listening
  | refuse {e : Engine} {clock : Calendar.Clock} {f : Fault} :
      e.reception.listen = .error f → Performs e ⟨.listen, clock⟩ e (.refused f)

/-- One step after the other. -/
inductive Runs : Engine → List Step → Engine → List Response → Prop where
  | nil {e : Engine} : Runs e [] e []
  | cons {e next last : Engine} {step : Step} {rest : List Step} {response : Response}
      {others : List Response} :
      Performs e step next response → Runs next rest last others →
      Runs e (step :: rest) last (response :: others)

/-- An engine between two steps is as a service says: open with threads that wait for clients, or
closed with no supervisor left. -/
structure Shows (e : Engine) (s : Service) : Prop where
  config : e.config = s.config
  catalog : e.catalog = s.catalog
  connections : e.connections = s.connections
  room : 0 < e.reception.backlog
  rests : e.reception.Rests s.stopped

end Engine

/-! ## Lemmas -/

/-! ### Calls that are served -/

/-- An empty batch is answered by nothing. -/
theorem Catalog.runBatch_empty (clock : Calendar.Clock) (c : Catalog) :
    c.runBatch clock "" = ⟨c, [], none⟩ := by
  have hempty : Statement.parse "" = .ok [] := by decide +kernel
  rw [runBatch, hempty]
  rfl

namespace Service

theorem Call.of_unserved {call : Call} (h : call.served = false) :
    (∃ name, call = .connect name) ∨ call = .stop ∨ call = .listen := by
  cases call with
  | connect name => exact .inl ⟨name, rfl⟩
  | stop => exact .inr (.inl rfl)
  | listen => exact .inr (.inr rfl)
  | query => cases h
  | batch => cases h
  | close => cases h
  | execute => cases h

variable {s next : Service} {step : Step} {hasStopped : Bool}

theorem batch?_flagged (s : Service) (a b c : Bool) (clock : Calendar.Clock) (name text : String) :
    (s.flagged a b c).batch? clock name text =
      (s.batch? clock name text).map fun (next, replies) => (next.flagged a b c, replies) := by
  have hconnections : (s.flagged a b c).connections = s.connections := rfl
  unfold batch?
  rw [hconnections]
  cases s.connections.lookup name <;> rfl

/-- A call that is served does not see whether the service listens, has stopped, or can be connected
to. -/
theorem perform_flagged (hserved : step.call.served = true) (s : Service) (a b c : Bool) :
    (s.flagged a b c).perform step =
      ((s.perform step).1.flagged a b c, (s.perform step).2) := by
  unfold perform
  split
  · next hcall => rw [hcall] at hserved; cases hserved
  · next name text _ =>
    unfold query?
    rw [batch?_flagged]
    cases s.batch? step.clock name text <;> rfl
  · next name text _ =>
    rw [batch?_flagged]
    cases s.batch? step.clock name text <;> rfl
  · rfl
  · next hcall => rw [hcall] at hserved; cases hserved
  · next hcall => rw [hcall] at hserved; cases hserved
  · rfl

theorem run_cons (s : Service) (step : Step) (rest : List Step) :
    s.run (step :: rest) = (((s.perform step).1.run rest).1,
      (s.perform step).2 :: ((s.perform step).1.run rest).2) := rfl

theorem run_flagged (steps : List Step) (hserved : ∀ step ∈ steps, step.call.served = true) :
    ∀ (s : Service) (a b c : Bool),
      (s.flagged a b c).run steps = ((s.run steps).1.flagged a b c, (s.run steps).2) := by
  induction steps with
  | nil => intro s a b c; rfl
  | cons step rest ih =>
    obtain ⟨hstep, hrest⟩ := List.forall_mem_cons.1 hserved
    intro s a b c
    rw [run_cons, run_cons, perform_flagged hstep, ih hrest]

/-- A call that is served leaves what it does not see. -/
theorem perform_unflagged (hserved : step.call.served = true) (s : Service) :
    (s.perform step).1 = (s.perform step).1.flagged s.listening s.stopped s.endpointOpen :=
  congrArg Prod.fst (perform_flagged hserved s s.listening s.stopped s.endpointOpen)

/-- Over a connection that is open every batch is answered from the catalog alone. -/
theorem Reachable.perform_batch (h : s.Reachable) {name : String}
    (hopen : (s.connections.lookup name).isSome = true) (clock : Calendar.Clock) (text : String) :
    (s.perform ⟨.batch name text, clock⟩).2 =
      .replies (s.catalog.runBatch clock text).heard := by
  obtain ⟨connection, hconnection⟩ := Option.isSome_iff_exists.1 hopen
  unfold perform
  dsimp only
  rw [h.quiet.batch? hconnection]
  rfl

/-- A service that does not wait for its clients keeps them when it stops. -/
theorem stop_eq_flagged (hdetach : s.config.shutdown.waits = false) :
    s.stop = s.flagged s.listening true false := by
  unfold stop flagged
  rw [hdetach]
  rfl

/-! ### Every call -/

theorem batch?_config {clock : Calendar.Clock} {name text : String} {replies : List Reply}
    (h : s.batch? clock name text = some (next, replies)) : next.config = s.config := by
  unfold batch? at h
  split at h
  · cases h
  · obtain ⟨rfl, -⟩ := Prod.mk.inj (Option.some.inj h)
    rfl

theorem batch?_drained {clock : Calendar.Clock} {name text : String}
    (h : s.connections = []) : s.batch? clock name text = none := by
  rw [batch?, h]
  rfl

/-- No call changes how the service is configured. -/
theorem perform_config (s : Service) (step : Step) : (s.perform step).1.config = s.config := by
  unfold perform
  split
  · next name _ =>
    unfold connect
    split
    · next hrefused => rfl
    · next opened hopened =>
      have hconfig : opened.config = s.config := by
        split at hopened
        · obtain rfl := Except.ok.inj hopened
          rfl
        · cases hopened
      split
      · next hbatch => rw [batch?_config hbatch, hconfig]
      · exact hconfig
  · next name text _ =>
    unfold query?
    cases hbatch : s.batch? step.clock name text with
    | none => rfl
    | some p => exact batch?_config hbatch
  · split
    · next hbatch => exact batch?_config hbatch
    · rfl
  · rfl
  · rfl
  · split
    · rfl
    · next hlisten =>
      unfold listen at hlisten
      split at hlisten
      · cases hlisten
      · split at hlisten
        · cases hlisten
        · obtain rfl := Except.ok.inj hlisten
          rfl
  · rfl

theorem run_config (steps : List Step) : ∀ s : Service, (s.run steps).1.config = s.config := by
  induction steps with
  | nil => intro s; rfl
  | cons step rest ih =>
    intro s
    rw [run_cons]
    exact (ih _).trans (s.perform_config step)

theorem Reachable.perform (h : s.Reachable) (step : Step) : (s.perform step).1.Reachable := by
  unfold Service.perform
  split
  · next name _ =>
    cases hconnect : s.connect name with
    | error f => exact h
    | ok opened =>
      have hopened : opened.Reachable := .connect name h hconnect
      dsimp only
      split
      · next hbatch => exact .batch hopened hbatch
      · exact hopened
  · next name text _ =>
    unfold query?
    cases hbatch : s.batch? step.clock name text with
    | none => exact h
    | some p => exact .batch h hbatch
  · split
    · next hbatch => exact .batch h hbatch
    · exact h
  · exact .close _ h
  · exact .stop h
  · split
    · exact h
    · next hlisten => exact .listen h hlisten
  · exact .execute _ _ h

theorem perform_drained (hserved : step.call.served = true) (h : s.connections = []) :
    (s.perform step).1.connections = [] := by
  unfold perform
  split
  · next hcall => rw [hcall] at hserved; cases hserved
  · rw [query?, batch?_drained h]
    exact h
  · rw [batch?_drained h]
    exact h
  · next name _ =>
    show s.without name = []
    rw [without, h]
    rfl
  · next hcall => rw [hcall] at hserved; cases hserved
  · next hcall => rw [hcall] at hserved; cases hserved
  · exact h

/-! ### Services that were started -/

namespace Kept

theorem start {config : Config} (h : Service.start config = .ok s) : s.Kept false := by
  have hreachable : s.Reachable := .start h
  simp only [Service.start, new, bind_eq_ok, pure_eq_ok] at h
  obtain ⟨_, ⟨_, -, rfl⟩, h⟩ := h
  obtain rfl := Except.ok.inj h
  exact ⟨hreachable, rfl, rfl, rfl, fun hstopped => by cases hstopped⟩

/-- A service that was started does not begin to listen again. -/
theorem perform_listen (h : s.Kept hasStopped) (clock : Calendar.Clock) :
    s.perform ⟨.listen, clock⟩ =
      (s, .refused (.connection
        (if hasStopped then "engine is stopped" else "engine is already listening"))) := by
  unfold Service.perform Service.listen
  rw [h.stopped, h.listening]
  cases hasStopped <;> rfl

theorem connect_eq (h : s.Kept false) (name : String) : s.connect name = .ok (s.opened name) :=
  if_pos h.endpointOpen

/-- A new connection is quiet, and an empty batch leaves everything as it was. -/
theorem batch?_opened (h : s.Kept false) (name : String) (clock : Calendar.Clock) :
    (s.opened name).batch? clock name "" = some (s.opened name, []) := by
  have hreachable : (s.opened name).Reachable := .connect name h.reachable (h.connect_eq name)
  have hopen : (s.opened name).connections.lookup name =
      some { capacity := max 1 s.config.channelCapacity } := by
    rw [opened, lookup_without_append, if_pos rfl]
  have hwithout : (s.opened name).without name = s.without name := by
    simp [opened, without, List.filter_append]
  rw [hreachable.quiet.batch? hopen, hwithout]
  unfold execute
  rw [Catalog.runBatch_empty]
  rfl

/-- A service that has not stopped can be connected to. -/
theorem perform_connect (h : s.Kept false) (name : String) (clock : Calendar.Clock) :
    s.perform ⟨.connect name, clock⟩ = (s.opened name, .connected []) := by
  unfold Service.perform
  dsimp only
  rw [h.connect_eq]
  dsimp only
  rw [h.batch?_opened]

/-- A service that has stopped cannot. -/
theorem perform_connect_of_stopped (h : s.Kept true) (name : String) (clock : Calendar.Clock) :
    s.perform ⟨.connect name, clock⟩ = (s, .refused (.connection "endpoint closed")) := by
  unfold Service.perform connect
  rw [h.endpointOpen]
  rfl

theorem stop (h : s.Kept hasStopped) : s.stop.Kept true :=
  ⟨.stop h.reachable, h.listening, rfl, rfl, fun _ hwaits => if_pos hwaits⟩

/-- Stopping a service again changes nothing. -/
theorem stop_eq (h : s.Kept true) : s.stop = s := by
  have hconnections : (if s.config.shutdown.waits then [] else s.connections) = s.connections := by
    split
    · next hwaits => exact (h.drained rfl hwaits).symm
    · rfl
  obtain ⟨config, catalog, listening, stopped, endpointOpen, connections⟩ := s
  obtain rfl : stopped = true := h.stopped
  obtain rfl : endpointOpen = false := h.endpointOpen
  unfold Service.stop
  rw [hconnections]

theorem perform_stop (h : s.Kept true) (clock : Calendar.Clock) :
    s.perform ⟨.stop, clock⟩ = (s, .stopped true) := by
  show (s.stop, Response.stopped s.stop.stopped) = (s, .stopped true)
  rw [h.stop_eq, h.stopped]

/-- Whatever a service is asked for, it goes on to be open, or closed once it has been stopped. -/
theorem perform (h : s.Kept hasStopped) (step : Step) :
    (s.perform step).1.Kept (hasStopped || step.call == .stop) := by
  have hreachable := h.reachable.perform step
  cases hserved : step.call.served with
  | true =>
    have hcall : (step.call == .stop) = false := by
      rw [beq_eq_false_iff_ne]
      intro hstop
      rw [hstop] at hserved
      cases hserved
    have hflags := perform_unflagged hserved s
    rw [hcall, Bool.or_false]
    refine ⟨hreachable, ?_, ?_, ?_, fun hstopped hwaits => ?_⟩
    · exact (congrArg Service.listening hflags).trans h.listening
    · exact (congrArg Service.stopped hflags).trans h.stopped
    · exact (congrArg Service.endpointOpen hflags).trans h.endpointOpen
    · rw [perform_config] at hwaits
      exact perform_drained hserved (h.drained hstopped hwaits)
  | false =>
    obtain ⟨call, clock⟩ := step
    obtain ⟨name, rfl⟩ | rfl | rfl := Call.of_unserved hserved
    · have hcall : (Call.connect name == .stop) = false := rfl
      rw [hcall, Bool.or_false]
      cases hasStopped with
      | true =>
        rw [h.perform_connect_of_stopped]
        exact h
      | false =>
        rw [h.perform_connect] at hreachable ⊢
        exact ⟨hreachable, h.listening, h.stopped, h.endpointOpen,
          fun hstopped => by cases hstopped⟩
    · rw [(by decide : (Call.stop == .stop) = true), Bool.or_true]
      exact h.stop
    · rw [h.perform_listen, (by decide : (Call.listen == .stop) = false), Bool.or_false]
      exact h

theorem run (steps : List Step) :
    ∀ {s : Service} {hasStopped : Bool}, s.Kept hasStopped →
      (s.run steps).1.Kept (hasStopped || steps.any (·.call == .stop)) := by
  induction steps with
  | nil =>
    intro s hasStopped h
    rw [List.any_nil, Bool.or_false]
    exact h
  | cons step rest ih =>
    intro s hasStopped h
    rw [List.any_cons, ← Bool.or_assoc]
    exact ih (h.perform step)

/-- A service that has stopped changes nothing for a call that it does not serve. -/
theorem perform_unserved (h : s.Kept true) (hserved : step.call.served = false) :
    (s.perform step).1 = s := by
  obtain ⟨call, clock⟩ := step
  obtain ⟨name, rfl⟩ | rfl | rfl := Call.of_unserved hserved
  · rw [h.perform_connect_of_stopped]
  · rw [h.perform_stop]
  · rw [h.perform_listen]

/-- A service that has stopped serves as if it were asked for nothing else. -/
theorem run_served (steps : List Step) :
    ∀ {s : Service}, s.Kept true →
      (s.run steps).1 = (s.run (steps.filter (·.call.served))).1 ∧
        servedOnly steps (s.run steps).2 = (s.run (steps.filter (·.call.served))).2 := by
  induction steps with
  | nil => intro s _; exact ⟨rfl, rfl⟩
  | cons step rest ih =>
    intro s h
    rw [run_cons, servedOnly, List.zip_cons_cons, List.filterMap_cons, List.filter_cons]
    obtain ⟨hlast, hanswers⟩ := ih (h.perform step)
    dsimp only
    cases hserved : step.call.served with
    | true =>
      refine ⟨hlast, ?_⟩
      exact congrArg (_ :: ·) hanswers
    | false =>
      rw [h.perform_unserved hserved] at hlast hanswers ⊢
      exact ⟨hlast, hanswers⟩

/-- Clients of a service that does not wait for them are served after a stop as they would have been
without. -/
theorem run_stop (h : s.Kept hasStopped) (hdetach : s.config.shutdown.waits = false)
    (steps : List Step) :
    (s.stop.run steps).1 = (s.run (steps.filter (·.call.served))).1.stop ∧
      servedOnly steps (s.stop.run steps).2 = (s.run (steps.filter (·.call.served))).2 := by
  obtain ⟨hlast, hanswers⟩ := h.stop.run_served steps
  have hserved : ∀ step ∈ steps.filter (·.call.served), step.call.served = true :=
    fun step hstep => (List.mem_filter.1 hstep).2
  have hconfig := run_config (steps.filter (·.call.served)) s
  have hlistening := (h.run (steps.filter (·.call.served))).listening.trans h.listening.symm
  rw [stop_eq_flagged hdetach, run_flagged _ hserved] at hlast hanswers
  rw [stop_eq_flagged hdetach, stop_eq_flagged (hconfig ▸ hdetach), hlistening]
  exact ⟨hlast, hanswers⟩

end Kept

end Service

/-! ### Engines -/

namespace Engine

open Service (Step Response)

variable {e last : Engine} {s : Service} {step : Step} {response : Response} {hasStopped : Bool}

namespace Shows

theorem start {config : Config} (hs : Service.start config = .ok s) :
    ∃ e, Engine.start config = .ok e ∧ e.Shows s := by
  simp only [Service.start, Service.new, bind_eq_ok, pure_eq_ok] at hs
  obtain ⟨_, ⟨_, hvalid, rfl⟩, hs⟩ := hs
  obtain rfl := Except.ok.inj hs
  have hroom : 0 < config.acceptBacklog := by
    refine Nat.pos_of_ne_zero fun hzero => ?_
    rw [Config.validate, if_pos hzero] at hvalid
    cases hvalid
  refine ⟨{ reception := .calm config.acceptBacklog [] 0, config }, ?_, rfl, rfl, rfl, hroom, .calm⟩
  rw [Engine.start, hvalid]
  rfl

/-- What an engine has besides its reception is what the service has. -/
theorem data_eq (h : e.Shows s) : e.data = s.flagged false false true := by
  unfold data Service.flagged
  rw [h.config, h.catalog, h.connections]

/-- The threads of an engine that move between two steps change nothing. -/
theorem move (h : e.Shows s) {r : Reception} (hmove : e.reception.Move r) :
    ({ e with reception := r } : Engine).Shows s :=
  ⟨h.config, h.catalog, h.connections, hmove.backlog_eq ▸ h.room, h.rests.move hmove⟩

/-- Whatever its threads do, an engine answers as the service does, and is then as it is. -/
theorem performs (hs : s.Kept hasStopped) (h : e.Shows s) (hp : Performs e step last response) :
    response = (s.perform step).2 ∧ last.Shows (s.perform step).1 := by
  have hrests : e.reception.Rests hasStopped := hs.stopped ▸ h.rests
  induction hp with
  | @move e _ _ _ _ hmove _ ih => exact ih (h.move hmove) (hrests.move hmove)
  | @serve e step hserved =>
    have hstopped := congrArg Service.stopped (Service.perform_unflagged hserved s)
    rw [h.data_eq, Service.perform_flagged hserved]
    refine ⟨rfl, h.config.trans (s.perform_config step).symm, rfl, rfl, h.room, ?_⟩
    rw [hstopped]
    exact h.rests
  | @connect e name clock r last opened next replies hknock hmoves hsettled _ hopened hbatch =>
    cases hasStopped with
    | true => cases hknock.symm.trans hrests.knock_of_closed
    | false =>
      obtain ⟨hlast, -, hbacklog⟩ := hrests.received hknock hmoves hsettled
      rw [h.data_eq] at hopened
      obtain rfl : (s.opened name).flagged false false true = opened := Except.ok.inj hopened
      rw [Service.batch?_flagged, hs.batch?_opened] at hbatch
      obtain ⟨rfl, rfl⟩ := Prod.mk.inj (Option.some.inj hbatch)
      rw [hs.perform_connect]
      refine ⟨rfl, h.config, rfl, rfl, hbacklog ▸ h.room, ?_⟩
      show Reception.Rests s.stopped last
      rw [hs.stopped]
      exact hlast
  | @lose e name clock r last hknock hmoves hsettled hlost =>
    cases hasStopped with
    | true => cases hknock.symm.trans hrests.knock_of_closed
    | false => exact absurd (hrests.received hknock hmoves hsettled).2.1 hlost
  | @shut e name clock f hknock =>
    cases hasStopped with
    | true =>
      obtain rfl := Except.error.inj (hknock.symm.trans hrests.knock_of_closed)
      rw [hs.perform_connect_of_stopped]
      exact ⟨rfl, h⟩
    | false =>
      obtain ⟨knocked, served, hopen, -⟩ := hrests.knock
      cases hknock.symm.trans hopen
  | @stop e clock last hmoves hwaited =>
    obtain ⟨hlast, htriggered, hbacklog⟩ := hrests.halted hmoves hwaited
    refine ⟨congrArg Response.stopped htriggered, h.config, h.catalog, ?_, hbacklog ▸ h.room, hlast⟩
    show (if e.config.shutdown.waits then [] else e.connections) =
      if s.config.shutdown.waits then [] else s.connections
    rw [h.config, h.connections]
  | @listen e clock r hlisten => cases hlisten.symm.trans hrests.listen
  | @refuse e clock f hlisten =>
    obtain rfl := Except.error.inj (hlisten.symm.trans hrests.listen)
    rw [hs.perform_listen]
    exact ⟨rfl, h⟩

/-- An engine does answer. -/
theorem goesOn (hs : s.Kept hasStopped) (h : e.Shows s) (step : Step) :
    ∃ last response, Performs e step last response := by
  have hrests : e.reception.Rests hasStopped := hs.stopped ▸ h.rests
  cases hserved : step.call.served with
  | true => exact ⟨_, _, .serve hserved⟩
  | false =>
    obtain ⟨call, clock⟩ := step
    obtain ⟨name, rfl⟩ | rfl | rfl := Service.Call.of_unserved hserved
    · cases hasStopped with
      | true => exact ⟨_, _, .shut hrests.knock_of_closed⟩
      | false =>
        obtain ⟨knocked, last, hknock, hmoves, hsettled⟩ := hrests.receives h.room
        obtain ⟨-, hserved, -⟩ := hrests.received hknock hmoves hsettled
        have hopened : e.data.connect name = .ok ((s.opened name).flagged false false true) := by
          rw [h.data_eq]
          rfl
        have hbatch : ((s.opened name).flagged false false true).batch? clock name "" =
            some ((s.opened name).flagged false false true, []) := by
          rw [Service.batch?_flagged, hs.batch?_opened]
          rfl
        exact ⟨_, _, .connect hknock hmoves hsettled hserved hopened hbatch⟩
    · obtain ⟨last, hmoves, hended⟩ := hrests.halts
      exact ⟨_, _, .stop hmoves fun _ => hended⟩
    · exact ⟨_, _, .refuse hrests.listen⟩

/-- One step after the other, an engine answers as the service does. -/
theorem runs {steps : List Step} {responses : List Response} (hr : Runs e steps last responses) :
    ∀ {s : Service} {hasStopped : Bool}, s.Kept hasStopped → e.Shows s →
      responses = (s.run steps).2 ∧ last.Shows (s.run steps).1 := by
  induction hr with
  | nil => exact fun _ h => ⟨rfl, h⟩
  | cons hp _ ih =>
    intro s hasStopped hs h
    obtain ⟨rfl, hnext⟩ := h.performs hs hp
    obtain ⟨rfl, hlast⟩ := ih (hs.perform _) hnext
    exact ⟨rfl, hlast⟩

theorem runs_goesOn (steps : List Step) :
    ∀ {e : Engine} {s : Service} {hasStopped : Bool}, s.Kept hasStopped → e.Shows s →
      ∃ last responses, Runs e steps last responses := by
  induction steps with
  | nil => exact fun _ _ => ⟨_, _, .nil⟩
  | cons step rest ih =>
    intro e s hasStopped hs h
    obtain ⟨next, response, hp⟩ := h.goesOn hs step
    obtain ⟨last, others, hrest⟩ := ih (hs.perform step) (h.performs hs hp).2
    exact ⟨last, response :: others, .cons hp hrest⟩

end Shows

end Engine

/-! ## Top theorem -/

/-- A service that was started, after it has been asked for anything, in any order and on any number
of connections: stopping it is final, and does not disturb those whom it serves.  Whatever the
threads of an engine do, it gives the same answers, it does give them (where it waits for its
clients, when they have hung up), and its threads do not move for ever. -/
theorem Service.stopped_for_good {config : Config} {s : Service}
    (h : Service.start config = .ok s) (before : List Service.Step) :
    Service.StopsForGood config before (s.run before).1 ∧
      (∃ e, Engine.start config = .ok e ∧ (∃ last responses, e.Runs before last responses) ∧
        ∀ last responses, e.Runs before last responses →
          responses = (s.run before).2 ∧ last.Shows (s.run before).1) ∧
      WellFounded fun next r => Reception.Move r next := by
  have hstart := Kept.start h
  have hkept := hstart.run before
  have hconfig : (s.run before).1.config = config := by
    simp only [Service.start, new, bind_eq_ok, pure_eq_ok] at h
    obtain ⟨_, ⟨_, -, rfl⟩, h⟩ := h
    obtain rfl := Except.ok.inj h
    exact run_config before _
  obtain ⟨e, he, hshows⟩ := Engine.Shows.start h
  refine ⟨⟨fun clock => ⟨_, hkept.perform_listen clock⟩, fun hnever => ?_, fun hstop => ?_,
    fun hdetach => ?_, fun hdetach after => ?_, fun name hopen clock text => ?_⟩,
    ⟨e, he, hshows.runs_goesOn before hstart, fun last responses hruns =>
      Engine.Shows.runs hruns hstart hshows⟩, Reception.wellFounded_move⟩
  · have hopen : before.any (·.call == .stop) = false := by
      simpa using hnever
    rw [hopen] at hkept
    exact hkept.perform_connect
  · have hclosed : before.any (·.call == .stop) = true := by
      simpa using hstop
    rw [hclosed] at hkept
    exact ⟨hkept.stopped, fun name clock => ⟨_, hkept.perform_connect_of_stopped name clock⟩,
      hkept.perform_stop⟩
  · rw [stop_eq_flagged (by rw [hconfig, hdetach]; rfl)]
    exact ⟨rfl, rfl⟩
  · exact hkept.run_stop (by rw [hconfig, hdetach]; rfl) after
  · exact hkept.reachable.perform_batch hopen clock text

/-- Two clients of a service that stops without waiting for them.  One adds a row and leaves, and
the other one sees the row; nobody else gets in. -/
theorem Service.stopped_for_good_of_two_clients :
    let clock : Calendar.Clock := fun _ _ => ""
    let s : Service := { config := {}, listening := true }
    let before : List Service.Step := [⟨.connect "a", clock⟩,
      ⟨.batch "a" "CREATE TABLE t (x int)", clock⟩, ⟨.connect "b", clock⟩]
    let stopped := (s.run (before ++ [⟨.stop, clock⟩])).1
    let after : List Service.Step := [⟨.listen, clock⟩, ⟨.connect "a", clock⟩,
      ⟨.batch "a" "INSERT INTO t (x) VALUES (1)", clock⟩, ⟨.close "a", clock⟩, ⟨.stop, clock⟩,
      ⟨.batch "a" "SELECT x FROM t", clock⟩, ⟨.query "b" "SELECT x FROM t", clock⟩]
    Service.start {} = .ok s ∧ stopped = (s.run before).1.stop ∧
    Service.servedOnly after (stopped.run after).2 = [.replies [.result 0 1], .closed true,
      .noConnection, .reply (.rows ["x"] [["1"]])] ∧
    (∀ name clock, ∃ f, stopped.perform ⟨.connect name, clock⟩ = (stopped, .refused f)) ∧
    ∃ e last, Engine.start {} = .ok e ∧ e.Runs before last (s.run before).2 := by
  intro clock s before stopped after
  have hstart : Service.start {} = .ok s := rfl
  obtain ⟨hgood, ⟨e, he, ⟨last, responses, hruns⟩, hsame⟩, -⟩ := stopped_for_good hstart before
  obtain ⟨hgood', -, -⟩ := stopped_for_good hstart (before ++ [⟨.stop, clock⟩])
  have hstopped : stopped = (s.run before).1.stop := rfl
  obtain ⟨rfl, -⟩ := hsame last responses hruns
  refine ⟨hstart, hstopped, ?_, ?_, e, last, he, hruns⟩
  · rw [hstopped, (hgood.served rfl after).2]
    decide +kernel
  · exact (hgood'.stopped ⟨_, List.mem_append_right before (List.mem_singleton_self _), rfl⟩).2.1

end Tabula
