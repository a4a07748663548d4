import Tabula.Execution

/-!
# Connections

A connection carries signals from a service to a client: the frames of an answer, and then the word
that the batch is answered.  Only so many signals may be under way at once; the service sends the
next when there is room, and the client takes one when there is none left to send or no room.
-/

namespace Tabula

/-- What a service sends to a client. -/
inductive Signal where
  | frame (f : Frame)
  /-- Everything that a batch is answered by has been sent. -/
  | answered
deriving DecidableEq, Repr

/-- The signals by which a batch is answered: its frames, the fault that ended it, and the end. -/
def Outcome.signals (o : Outcome) : List Signal :=
  o.frames.map .frame ++ (o.fault.toList.map fun f => .frame (.fault f.message)) ++ [.answered]

/-- What is on its way to a client. -/
structure Connection where
  /-- How many signals may be under way. -/
  capacity : Nat
  /-- Signals that found no room yet. -/
  unsent : List Signal := []
  underWay : List Signal := []
deriving DecidableEq, Repr

namespace Connection

/-- Hands signals to the connection. -/
def send (c : Connection) (signals : List Signal) : Connection :=
  { c with unsent := c.unsent ++ signals }

/-- Signals are sent and taken until the client learns that its batch is answered, or nothing can
move any more. -/
def receive (c : Connection) (replies : Collector) : Connection × Collector :=
  match c with
  | ⟨capacity, signal :: unsent, underWay⟩ =>
    if underWay.length < capacity then receive ⟨capacity, unsent, underWay ++ [signal]⟩ replies
    else
      match underWay with
      | [] => (c, replies)
      | .answered :: rest => (⟨capacity, signal :: unsent, rest⟩, replies)
      | .frame f :: rest => receive ⟨capacity, signal :: unsent, rest⟩ (replies.take f)
  | ⟨capacity, [], underWay⟩ =>
    match underWay with
    | [] => (c, replies)
    | .answered :: rest => (⟨capacity, [], rest⟩, replies)
    | .frame f :: rest => receive ⟨capacity, [], rest⟩ (replies.take f)
termination_by 2 * c.unsent.length + c.underWay.length
decreasing_by all_goals simp only [List.length_cons, List.length_append, List.length_nil]; omega

/-- Answers a batch, and the replies that its client puts together. -/
def answer (c : Connection) (o : Outcome) : Connection × List Reply :=
  let (c, replies) := (c.send o.signals).receive {}
  (c, replies.replies)

end Connection

end Tabula
