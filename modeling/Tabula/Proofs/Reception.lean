import Mathlib.Logic.Relation
import Tabula.Fault

/-!
# How clients are received

A service that listens has two threads for its clients.  One takes connections from the endpoint and
hands them over; the other gives each of them a thread of its own, watches for the stop signal, and
closes the endpoint when it leaves.  Which of them moves next is not laid down: `Reception.Move`
allows every order.

* `Reception.wellFounded_move`: no reception moves for ever.
* `Reception.Rests.received`, `Reception.Rests.receives`: a connection that comes to a reception
  that is open is served, wherever the moves end.
* `Reception.Rests.halted`, `Reception.Rests.halts`: a reception that is told to stop closes,
  wherever the moves end.
-/

namespace Tabula

/-! ## Algorithm -/

/-- The thread that takes connections from an endpoint. -/
inductive Acceptor where
  | waiting
  /-- It waits until there is room to hand a connection over. -/
  | holding (ticket : Nat)
  | ended
deriving DecidableEq, Repr

/-- The thread that serves connections until the stop signal comes. -/
inductive Supervisor where
  | waiting
  /-- It has left its loop, and closes the endpoint next. -/
  | leaving
  /-- It has dropped the first of the two ends by which the endpoint is open. -/
  | closing
  | ended
deriving DecidableEq, Repr

/-- What the threads share, and where each of them is.  Connections are known by their tickets,
which are numbered as they are issued. -/
structure Reception where
  /-- How many connections may be handed over and not served yet. -/
  backlog : Nat
  /-- Whether the stop signal has been given. -/
  triggered : Bool := false
  /-- Whether there is a supervisor for a stop to wait for. -/
  supervised : Bool := false
  /-- Whether the endpoint takes connections from clients. -/
  incoming : Bool := true
  /-- Whether the endpoint has not been told to close. -/
  closer : Bool := true
  /-- Connections that wait at the endpoint. -/
  queue : List Nat := []
  acceptor : Acceptor := .ended
  /-- Connections that have been handed over. -/
  handoff : List Nat := []
  supervisor : Supervisor := .ended
  /-- Connections that were given a thread of their own. -/
  served : List Nat := []
  issued : Nat := 0
deriving DecidableEq, Repr

namespace Reception

/-- Starts the threads, which can be done once and not after a stop. -/
def listen (r : Reception) : Except Fault Reception :=
  if r.triggered then .error (.connection "engine is stopped")
  else if r.supervised then .error (.connection "engine is already listening")
  else .ok { r with supervised := true, acceptor := .waiting, supervisor := .waiting }

/-- A client sends a connection to the endpoint. -/
def knock (r : Reception) : Except Fault Reception :=
  if r.incoming then .ok { r with queue := r.queue ++ [r.issued], issued := r.issued + 1 }
  else .error (.connection "endpoint closed")

/-- The stop signal is given, and the supervisor is taken out of its place to be waited for. -/
def halt (r : Reception) : Reception :=
  { r with triggered := true, supervised := false }

/-- What may happen next. -/
inductive Move : Reception → Reception → Prop where
  | accept {r : Reception} {ticket : Nat} {rest : List Nat} :
      r.acceptor = .waiting → r.queue = ticket :: rest →
      Move r { r with queue := rest, acceptor := .holding ticket }
  | hand {r : Reception} {ticket : Nat} :
      r.acceptor = .holding ticket → r.handoff.length < r.backlog → r.supervisor ≠ .ended →
      Move r { r with acceptor := .waiting, handoff := r.handoff ++ [ticket] }
  /-- Nobody takes what the acceptor holds. -/
  | drop {r : Reception} {ticket : Nat} :
      r.acceptor = .holding ticket → r.supervisor = .ended → Move r { r with acceptor := .ended }
  /-- The acceptor finds the endpoint closed.  It gives the stop signal, if nobody has. -/
  | fail {r : Reception} :
      r.acceptor = .waiting → r.closer = false ∨ r.incoming = false ∧ r.queue = [] →
      Move r { r with triggered := true, acceptor := .ended }
  | serve {r : Reception} {ticket : Nat} {rest : List Nat} :
      r.supervisor = .waiting → r.handoff = ticket :: rest → r.triggered = false →
      Move r { r with handoff := rest, served := r.served ++ [ticket] }
  /-- A connection comes after the stop signal. -/
  | turnAway {r : Reception} {ticket : Nat} {rest : List Nat} :
      r.supervisor = .waiting → r.handoff = ticket :: rest → r.triggered = true →
      Move r { r with handoff := rest, supervisor := .leaving }
  /-- No connection can come any more. -/
  | desert {r : Reception} :
      r.supervisor = .waiting → r.handoff = [] → r.acceptor = .ended →
      Move r { r with supervisor := .leaving }
  | notice {r : Reception} :
      r.supervisor = .waiting → r.triggered = true → Move r { r with supervisor := .leaving }
  | dropCloser {r : Reception} :
      r.supervisor = .leaving → Move r { r with closer := false, supervisor := .closing }
  | dropIncoming {r : Reception} :
      r.supervisor = .closing →
      Move r { r with incoming := false, handoff := [], supervisor := .ended }

/-- Any number of moves. -/
abbrev Moves : Reception → Reception → Prop :=
  Relation.ReflTransGen Move

/-- Nothing can move any more. -/
def Over (r : Reception) : Prop :=
  ∀ next, ¬ Move r next

end Reception

/-- The moves that an acceptor makes at most, and those that it makes others make. -/
def Acceptor.weight : Acceptor → Nat
  | .waiting => 1
  | .holding _ => 3
  | .ended => 0

def Supervisor.weight : Supervisor → Nat
  | .waiting => 3
  | .leaving => 2
  | .closing => 1
  | .ended => 0

/-- What comes next for a supervisor that has been told to stop. -/
def Supervisor.onward : Supervisor → Supervisor
  | .waiting => .leaving
  | .leaving => .closing
  | .closing => .ended
  | .ended => .ended

namespace Reception

/-- The moves that are left at most: a connection is accepted, handed over and served. -/
def left (r : Reception) : Nat :=
  3 * r.queue.length + r.acceptor.weight + r.handoff.length + r.supervisor.weight

/-- A reception whose threads wait for clients. -/
def calm (backlog : Nat) (served : List Nat) (issued : Nat) : Reception :=
  { backlog, supervised := true, acceptor := .waiting, supervisor := .waiting, served, issued }

/-- A reception to which one connection has come. -/
inductive Receiving (backlog : Nat) (served : List Nat) (ticket : Nat) : Reception → Prop where
  | queued : Receiving backlog served ticket
      { calm backlog served (ticket + 1) with queue := [ticket] }
  | held : Receiving backlog served ticket
      { calm backlog served (ticket + 1) with acceptor := .holding ticket }
  | handed : Receiving backlog served ticket
      { calm backlog served (ticket + 1) with handoff := [ticket] }
  | served : Receiving backlog served ticket (calm backlog (served ++ [ticket]) (ticket + 1))

/-- A reception that has been told to stop. -/
def stopping (backlog : Nat) (served : List Nat) (issued : Nat) (acceptor : Acceptor)
    (supervisor : Supervisor) : Reception :=
  { backlog, triggered := true, served, issued, acceptor, supervisor
    incoming := supervisor ≠ .ended, closer := supervisor = .waiting ∨ supervisor = .leaving }

/-- The acceptor of a reception that stops holds nothing, and ends only after the endpoint has been
told to close. -/
inductive Leaving (backlog : Nat) (served : List Nat) (issued : Nat) : Reception → Prop where
  | waiting {supervisor : Supervisor} :
      Leaving backlog served issued (stopping backlog served issued .waiting supervisor)
  | ended {supervisor : Supervisor} : supervisor = .closing ∨ supervisor = .ended →
      Leaving backlog served issued (stopping backlog served issued .ended supervisor)

/-- A connection has been served, or is nowhere. -/
def Settled (r : Reception) (ticket : Nat) : Prop :=
  ticket ∉ r.queue ∧ r.acceptor ≠ .holding ticket ∧ ticket ∉ r.handoff

/-- A reception between two things that are asked of it, given whether it was told to stop. -/
inductive Rests : Bool → Reception → Prop where
  | calm {backlog : Nat} {served : List Nat} {issued : Nat} :
      Rests false (calm backlog served issued)
  | closed {backlog : Nat} {served : List Nat} {issued : Nat} {r : Reception} :
      Leaving backlog served issued r → r.supervisor = .ended → Rests true r

/-! ## Lemmas -/

/-- Every move leaves fewer to come. -/
theorem Move.left_lt {r next : Reception} (h : Move r next) : next.left < r.left := by
  cases h with
  | accept hacceptor hqueue =>
    simp only [left, hacceptor, hqueue, Acceptor.weight, List.length_cons]
    omega
  | hand hacceptor _ _ =>
    simp only [left, hacceptor, Acceptor.weight, List.length_append, List.length_singleton]
    omega
  | drop hacceptor _ =>
    simp only [left, hacceptor, Acceptor.weight]
    omega
  | fail hacceptor _ =>
    simp only [left, hacceptor, Acceptor.weight]
    omega
  | serve _ hhandoff _ =>
    simp only [left, hhandoff, List.length_cons]
    omega
  | turnAway hsupervisor hhandoff _ =>
    simp only [left, hsupervisor, hhandoff, Supervisor.weight, List.length_cons]
    omega
  | desert hsupervisor _ _ =>
    simp only [left, hsupervisor, Supervisor.weight]
    omega
  | notice hsupervisor _ =>
    simp only [left, hsupervisor, Supervisor.weight]
    omega
  | dropCloser hsupervisor =>
    simp only [left, hsupervisor, Supervisor.weight]
    omega
  | dropIncoming hsupervisor =>
    simp only [left, hsupervisor, Supervisor.weight, List.length_nil]
    omega

/-- No reception moves for ever. -/
theorem wellFounded_move : WellFounded fun next r => Move r next :=
  Subrelation.wf (fun h => h.left_lt) (measure left).wf

variable {backlog issued ticket : Nat} {served : List Nat} {r next : Reception}

/-! ### Receiving a connection -/

/-- As long as nobody stops it, a reception accepts connections, hands them over and serves them. -/
theorem Move.of_open (htriggered : r.triggered = false) (hincoming : r.incoming = true)
    (hcloser : r.closer = true) (hacceptor : r.acceptor ≠ .ended)
    (hsupervisor : r.supervisor = .waiting) (h : Move r next) :
    (∃ ticket rest, r.acceptor = .waiting ∧ r.queue = ticket :: rest ∧
        next = { r with queue := rest, acceptor := .holding ticket }) ∨
      (∃ ticket, r.acceptor = .holding ticket ∧
        next = { r with acceptor := .waiting, handoff := r.handoff ++ [ticket] }) ∨
      ∃ ticket rest, r.handoff = ticket :: rest ∧
        next = { r with handoff := rest, served := r.served ++ [ticket] } := by
  cases h with
  | accept hwaiting hqueue => exact .inl ⟨_, _, hwaiting, hqueue, rfl⟩
  | hand hholding _ _ => exact .inr (.inl ⟨_, hholding, rfl⟩)
  | serve _ hhandoff _ => exact .inr (.inr ⟨_, _, hhandoff, rfl⟩)
  | drop _ hended => cases hsupervisor.symm.trans hended
  | fail _ hclosed =>
    rcases hclosed with hclosed | ⟨hclosed, -⟩
    · cases hcloser.symm.trans hclosed
    · cases hincoming.symm.trans hclosed
  | turnAway _ _ hstopped => cases htriggered.symm.trans hstopped
  | desert _ _ hended => exact absurd hended hacceptor
  | notice _ hstopped => cases htriggered.symm.trans hstopped
  | dropCloser hleaving => cases hsupervisor.symm.trans hleaving
  | dropIncoming hclosing => cases hsupervisor.symm.trans hclosing

/-- Where the threads wait for clients, nothing moves. -/
theorem calm_over (backlog : Nat) (served : List Nat) (issued : Nat) :
    (calm backlog served issued).Over := by
  intro next hmove
  obtain ⟨_, _, -, hqueue, -⟩ | ⟨_, hholding, -⟩ | ⟨_, _, hhandoff, -⟩ :=
    hmove.of_open rfl rfl rfl (by nofun) rfl
  · cases hqueue
  · cases hholding
  · cases hhandoff

namespace Receiving

theorem move (h : Receiving backlog served ticket r) (hmove : Move r next) :
    Receiving backlog served ticket next := by
  cases h with
  | queued =>
    obtain ⟨_, _, -, hqueue, rfl⟩ | ⟨_, hholding, -⟩ | ⟨_, _, hhandoff, -⟩ :=
      hmove.of_open rfl rfl rfl (by nofun) rfl
    · obtain ⟨rfl, rfl⟩ := List.cons.inj hqueue
      exact .held
    · cases hholding
    · cases hhandoff
  | held =>
    obtain ⟨_, _, hwaiting, -⟩ | ⟨_, hholding, rfl⟩ | ⟨_, _, hhandoff, -⟩ :=
      hmove.of_open rfl rfl rfl (by nofun) rfl
    · cases hwaiting
    · obtain rfl := Acceptor.holding.inj hholding
      exact .handed
    · cases hhandoff
  | handed =>
    obtain ⟨_, _, -, hqueue, -⟩ | ⟨_, hholding, -⟩ | ⟨_, _, hhandoff, rfl⟩ :=
      hmove.of_open rfl rfl rfl (by nofun) rfl
    · cases hqueue
    · cases hholding
    · obtain ⟨rfl, rfl⟩ := List.cons.inj hhandoff
      exact .served
  | served => exact absurd hmove (calm_over _ _ _ _)

theorem moves (h : Receiving backlog served ticket r) (hmoves : r.Moves next) :
    Receiving backlog served ticket next := by
  induction hmoves with
  | refl => exact h
  | tail _ hmove ih => exact ih.move hmove

/-- A connection that has been received is served. -/
theorem done (h : Receiving backlog served ticket r) (hsettled : r.Settled ticket) :
    r = calm backlog (served ++ [ticket]) (ticket + 1) := by
  obtain ⟨hqueue, hacceptor, hhandoff⟩ := hsettled
  cases h with
  | queued => exact absurd (List.mem_singleton_self ticket) hqueue
  | held => exact absurd rfl hacceptor
  | handed => exact absurd (List.mem_singleton_self ticket) hhandoff
  | served => rfl

/-- A reception with room goes on until it serves the connection. -/
theorem goesOn (hroom : 0 < backlog) (h : Receiving backlog served ticket r) :
    ∃ last, r.Moves last ∧ last.Settled ticket := by
  have hserved : (calm backlog (served ++ [ticket]) (ticket + 1)).Settled ticket :=
    ⟨nofun, nofun, nofun⟩
  have hserve : Move { calm backlog served (ticket + 1) with handoff := [ticket] }
      (calm backlog (served ++ [ticket]) (ticket + 1)) := .serve rfl rfl rfl
  have hhand : Move { calm backlog served (ticket + 1) with acceptor := .holding ticket }
      { calm backlog served (ticket + 1) with handoff := [ticket] } := .hand rfl hroom nofun
  refine ⟨_, ?_, hserved⟩
  cases h with
  | queued => exact .head (.accept rfl rfl) (.head hhand (.single hserve))
  | held => exact .head hhand (.single hserve)
  | handed => exact .single hserve
  | served => exact .refl

end Receiving

/-! ### Leaving -/

/-- What is left of a reception that stops: the supervisor goes on to close the endpoint, and the
acceptor ends when it finds the endpoint closed. -/
theorem Move.of_stopping {acceptor : Acceptor} {supervisor : Supervisor}
    (hidle : acceptor = .waiting ∨ acceptor = .ended)
    (h : Move (stopping backlog served issued acceptor supervisor) next) :
    ((supervisor = .closing ∨ supervisor = .ended) ∧ acceptor = .waiting ∧
        next = stopping backlog served issued .ended supervisor) ∨
      next = stopping backlog served issued acceptor supervisor.onward := by
  have hnone (ticket : Nat) : acceptor ≠ .holding ticket := by
    rcases hidle with rfl | rfl <;> nofun
  cases h with
  | accept _ hqueue => cases hqueue
  | hand hholding _ _ => exact absurd hholding (hnone _)
  | drop hholding _ => exact absurd hholding (hnone _)
  | fail hwaiting hclosed =>
    refine .inl ⟨?_, hwaiting, rfl⟩
    cases supervisor with
    | waiting => rcases hclosed with hclosed | ⟨hclosed, -⟩ <;> cases hclosed
    | leaving => rcases hclosed with hclosed | ⟨hclosed, -⟩ <;> cases hclosed
    | closing => exact .inl rfl
    | ended => exact .inr rfl
  | serve _ _ htriggered => cases htriggered
  | turnAway _ hhandoff _ => cases hhandoff
  | desert hsupervisor _ _ =>
    obtain rfl : supervisor = .waiting := hsupervisor
    exact .inr rfl
  | notice hsupervisor _ =>
    obtain rfl : supervisor = .waiting := hsupervisor
    exact .inr rfl
  | dropCloser hsupervisor =>
    obtain rfl : supervisor = .leaving := hsupervisor
    exact .inr rfl
  | dropIncoming hsupervisor =>
    obtain rfl : supervisor = .closing := hsupervisor
    exact .inr rfl

/-- A supervisor that has been told to stop goes on until it has ended. -/
theorem stopping_moves (acceptor : Acceptor) (supervisor : Supervisor) :
    (stopping backlog served issued acceptor supervisor).Moves
      (stopping backlog served issued acceptor .ended) := by
  have hclosing : Move (stopping backlog served issued acceptor .closing)
      (stopping backlog served issued acceptor .ended) := .dropIncoming rfl
  have hleaving : Move (stopping backlog served issued acceptor .leaving)
      (stopping backlog served issued acceptor .closing) := .dropCloser rfl
  cases supervisor with
  | waiting => exact .head (.notice rfl rfl) (.head hleaving (.single hclosing))
  | leaving => exact .head hleaving (.single hclosing)
  | closing => exact .single hclosing
  | ended => exact .refl

namespace Leaving

theorem move (h : Leaving backlog served issued r) (hmove : Move r next) :
    Leaving backlog served issued next := by
  cases h with
  | waiting =>
    obtain ⟨hclosed, -, rfl⟩ | rfl := hmove.of_stopping (.inl rfl)
    · exact .ended hclosed
    · exact .waiting
  | ended hclosed =>
    obtain ⟨-, hwaiting, -⟩ | rfl := hmove.of_stopping (.inr rfl)
    · cases hwaiting
    · refine .ended (.inr ?_)
      rcases hclosed with rfl | rfl <;> rfl

theorem moves (h : Leaving backlog served issued r) (hmoves : r.Moves next) :
    Leaving backlog served issued next := by
  induction hmoves with
  | refl => exact h
  | tail _ hmove ih => exact ih.move hmove

/-- A reception that has been told to stop goes on until its supervisor has ended. -/
theorem goesOn (h : Leaving backlog served issued r) :
    ∃ last, r.Moves last ∧ last.supervisor = .ended := by
  cases h with
  | waiting => exact ⟨_, stopping_moves _ _, rfl⟩
  | ended _ => exact ⟨_, stopping_moves _ _, rfl⟩

/-- Where the supervisor has ended, the endpoint is closed, and stays so. -/
theorem closed (h : Leaving backlog served issued r) (hended : r.supervisor = .ended) :
    r.incoming = false ∧ r.triggered = true ∧ r.supervised = false ∧
      ∀ next, Move r next → next.supervisor = .ended := by
  cases h with
  | @waiting supervisor =>
    obtain rfl : supervisor = .ended := hended
    refine ⟨rfl, rfl, rfl, fun next hmove => ?_⟩
    obtain ⟨-, -, rfl⟩ | rfl := hmove.of_stopping (.inl rfl) <;> rfl
  | @ended supervisor _ =>
    obtain rfl : supervisor = .ended := hended
    refine ⟨rfl, rfl, rfl, fun next hmove => ?_⟩
    obtain ⟨-, -, rfl⟩ | rfl := hmove.of_stopping (.inr rfl) <;> rfl

end Leaving

/-- The room for connections stays as it was. -/
theorem Move.backlog_eq (h : Move r next) : next.backlog = r.backlog := by
  cases h <;> rfl

theorem Moves.backlog_eq (h : r.Moves next) : next.backlog = r.backlog := by
  induction h with
  | refl => rfl
  | tail _ hmove ih => exact hmove.backlog_eq.trans ih

/-! ### What is asked of a reception -/

namespace Rests

variable {stopped : Bool} {knocked last : Reception}

theorem move (h : Rests stopped r) (hmove : Move r next) : Rests stopped next := by
  cases h with
  | calm => exact absurd hmove (calm_over _ _ _ _)
  | closed hleaving hended =>
    exact .closed (hleaving.move hmove) ((hleaving.closed hended).2.2.2 next hmove)

theorem moves (h : Rests stopped r) (hmoves : r.Moves next) : Rests stopped next := by
  induction hmoves with
  | refl => exact h
  | tail _ hmove ih => exact ih.move hmove

/-- No reception begins to listen again. -/
theorem listen (h : Rests stopped r) :
    r.listen = .error (.connection
      (if stopped then "engine is stopped" else "engine is already listening")) := by
  cases h with
  | calm => rfl
  | closed hleaving hended =>
    rw [Reception.listen, (hleaving.closed hended).2.1]
    rfl

theorem knock_of_closed (h : Rests true r) :
    r.knock = .error (.connection "endpoint closed") := by
  cases h with
  | closed hleaving hended =>
    rw [knock, (hleaving.closed hended).1]
    rfl

theorem knock (h : Rests false r) : ∃ knocked served, r.knock = .ok knocked ∧
    Receiving r.backlog served r.issued knocked := by
  cases h with
  | calm => exact ⟨_, _, rfl, .queued⟩

/-- A connection that comes to an open reception is served, wherever the moves end. -/
theorem received (h : Rests false r) (hknock : r.knock = .ok knocked)
    (hmoves : knocked.Moves last) (hsettled : last.Settled r.issued) :
    Rests false last ∧ r.issued ∈ last.served ∧ last.backlog = r.backlog := by
  obtain ⟨_, served, hsame, hreceiving⟩ := h.knock
  obtain rfl := Except.ok.inj (hsame.symm.trans hknock)
  rw [(hreceiving.moves hmoves).done hsettled]
  exact ⟨.calm, List.mem_append_right _ (List.mem_singleton_self _), rfl⟩

theorem receives (h : Rests false r) (hroom : 0 < r.backlog) :
    ∃ knocked last, r.knock = .ok knocked ∧ knocked.Moves last ∧ last.Settled r.issued := by
  obtain ⟨knocked, served, hknock, hreceiving⟩ := h.knock
  obtain ⟨last, hmoves, hsettled⟩ := hreceiving.goesOn hroom
  exact ⟨knocked, last, hknock, hmoves, hsettled⟩

/-- A reception that is told to stop is on its way to be closed, if it is not closed already. -/
theorem halt (h : Rests stopped r) :
    (∃ served issued, Leaving r.backlog served issued r.halt) ∧
      (r.supervised = true ∨ r.halt.supervisor = .ended) := by
  cases h with
  | @calm backlog served issued =>
    have hhalt : (Reception.calm backlog served issued).halt =
        stopping backlog served issued .waiting .waiting := rfl
    rw [hhalt]
    exact ⟨⟨_, _, .waiting⟩, .inl rfl⟩
  | @closed backlog served issued _ hleaving hended =>
    have hhalt : r.halt = r := by
      obtain ⟨-, htriggered, hsupervised, -⟩ := hleaving.closed hended
      rw [Reception.halt, ← htriggered, ← hsupervised]
    have hbacklog : r.backlog = backlog := by cases hleaving <;> rfl
    rw [hhalt, hbacklog]
    exact ⟨⟨_, _, hleaving⟩, .inr hended⟩

/-- A reception that has been told to stop is closed, wherever the moves end. -/
theorem halted (h : Rests stopped r) (hmoves : r.halt.Moves last)
    (hwaited : r.supervised = true → last.supervisor = .ended) :
    Rests true last ∧ last.triggered = true ∧ last.backlog = r.backlog := by
  obtain ⟨⟨served, issued, hleaving⟩, hended⟩ := h.halt
  have hrests : Rests true last := by
    rcases hended with hsupervised | hended
    · exact .closed (hleaving.moves hmoves) (hwaited hsupervised)
    · exact moves (.closed hleaving hended) hmoves
  refine ⟨hrests, ?_, hmoves.backlog_eq⟩
  cases hrests with
  | closed hleaving hended => exact (hleaving.closed hended).2.1

theorem halts (h : Rests stopped r) :
    ∃ last, r.halt.Moves last ∧ last.supervisor = .ended := by
  obtain ⟨⟨served, issued, hleaving⟩, -⟩ := h.halt
  exact hleaving.goesOn

end Rests

end Reception

end Tabula
