import Mathlib.Logic.Relation
import Tabula.Proofs.Concatenation
import Tabula.Service

/-!
# Batches over connections

The answer to a batch goes to its client signal by signal, through a connection that has room for
few of them, and the client puts the frames together again.  When the service sends and when the
client takes is not laid down: `Exchange.Move` allows every order.

* `Statement.executeAll_led`: a row is sent only after a header, so that no collector refuses it.
* `Exchange.Toward.over`: wherever the moves of an exchange end, the client has its answer, and the
  connection is as it was before.
* `Service.Reachable.served_directly`: batches over any connections of a service, one at a time,
  are answered as if they were executed without a connection.
-/

namespace Tabula

/-! ## Algorithm -/

/-- Whether every row comes after a header with only rows between; `begun` says whether a header
came before. -/
def Frame.led (begun : Bool) : List Frame → Bool
  | [] => true
  | .header _ :: rest => led true rest
  | .row _ :: rest => begun && led begun rest
  | .result _ _ :: rest => led false rest
  | .fault _ :: rest => led false rest
  | .done :: rest => led false rest

/-- Who waits for the answer to a batch. -/
inductive Client where
  | waiting (replies : Collector)
  | answered (replies : List Reply)
  /-- A frame came that could not be taken. -/
  | broken (f : Fault)
deriving DecidableEq, Repr

/-- A connection over which a batch is being answered, and who waits for the answer. -/
structure Exchange where
  connection : Connection
  client : Client
deriving DecidableEq, Repr

namespace Exchange

/-- The answer is there, and none of it has been sent. -/
def begin (connection : Connection) (o : Outcome) : Exchange :=
  ⟨connection.send o.signals, .waiting {}⟩

/-- What may happen next: the service sends a signal for which there is room, or the client takes
the signal that has been under way for longest. -/
inductive Move : Exchange → Exchange → Prop where
  | send {capacity : Nat} {signal : Signal} {unsent underWay : List Signal} {client : Client} :
      underWay.length < capacity →
      Move ⟨⟨capacity, signal :: unsent, underWay⟩, client⟩
        ⟨⟨capacity, unsent, underWay ++ [signal]⟩, client⟩
  | take {capacity : Nat} {unsent underWay : List Signal} {f : Frame} {replies next : Collector} :
      replies.push f = .ok next →
      Move ⟨⟨capacity, unsent, .frame f :: underWay⟩, .waiting replies⟩
        ⟨⟨capacity, unsent, underWay⟩, .waiting next⟩
  | refuse {capacity : Nat} {unsent underWay : List Signal} {f : Frame} {replies : Collector}
      {fault : Fault} :
      replies.push f = .error fault →
      Move ⟨⟨capacity, unsent, .frame f :: underWay⟩, .waiting replies⟩
        ⟨⟨capacity, unsent, underWay⟩, .broken fault⟩
  | finish {capacity : Nat} {unsent underWay : List Signal} {replies : Collector} :
      Move ⟨⟨capacity, unsent, .answered :: underWay⟩, .waiting replies⟩
        ⟨⟨capacity, unsent, underWay⟩, .answered replies.replies⟩

/-- Any number of moves. -/
abbrev Moves : Exchange → Exchange → Prop :=
  Relation.ReflTransGen Move

/-- Nothing can move any more. -/
def Over (e : Exchange) : Prop :=
  ∀ next, ¬ Move e next

/-- The moves that are left at most: a signal is sent and taken. -/
def left (e : Exchange) : Nat :=
  2 * e.connection.unsent.length + e.connection.underWay.length

/-- An exchange in which what is on its way, taken in order, makes the client's replies complete. -/
inductive Toward (capacity : Nat) (whole : Collector) : Exchange → Prop where
  | waiting {unsent underWay : List Signal} {frames : List Frame} {replies : Collector} :
      underWay ++ unsent = frames.map .frame ++ [.answered] →
      frames.foldlM Collector.push replies = .ok whole →
      Toward capacity whole ⟨⟨capacity, unsent, underWay⟩, .waiting replies⟩
  | answered : Toward capacity whole ⟨⟨capacity, [], []⟩, .answered whole.replies⟩

end Exchange

/-- A connection with room for a signal and none on its way. -/
structure Connection.Quiet (c : Connection) : Prop where
  room : 0 < c.capacity
  unsent : c.unsent = []
  underWay : c.underWay = []

/-- A batch for a service: the connection that it comes over, its text, and the times that it
reads. -/
structure Batch where
  connection : String
  text : String
  clock : Calendar.Clock

namespace Service

/-- The services that operations lead to from one that listens. -/
inductive Reachable : Service → Prop where
  | start {config : Config} {s : Service} : Service.start config = .ok s → Reachable s
  | listen {s next : Service} : Reachable s → s.listen = .ok next → Reachable next
  | execute {s : Service} (clock : Calendar.Clock) (text : String) :
      Reachable s → Reachable (s.execute clock text).1
  | connect {s next : Service} (name : String) :
      Reachable s → s.connect name = .ok next → Reachable next
  | batch {s next : Service} {clock : Calendar.Clock} {name text : String} {replies : List Reply} :
      Reachable s → s.batch? clock name text = some (next, replies) → Reachable next
  | close {s : Service} (name : String) : Reachable s → Reachable (s.close name).1
  | closeEndpoint {s : Service} : Reachable s → Reachable s.closeEndpoint
  | stop {s : Service} : Reachable s → Reachable s.stop

/-- What batches lead to that come over connections one after the other, and what becomes of the
clients, in whatever order each exchange moves. -/
inductive Served : Service → List Batch → Service → List Client → Prop where
  | nil {s : Service} : Served s [] s []
  | cons {s last : Service} {b : Batch} {rest : List Batch} {connection : Connection}
      {e : Exchange} {clients : List Client} :
      s.connections.lookup b.connection = some connection →
      (Exchange.begin connection (s.execute b.clock b.text).2).Moves e → e.Over →
      Served { (s.execute b.clock b.text).1 with
        connections := s.without b.connection ++ [(b.connection, e.connection)] }
        rest last clients →
      Served s (b :: rest) last (e.client :: clients)

/-- The replies to batches that come over connections one after the other. -/
def converse (s : Service) : List Batch → Option (Service × List (List Reply))
  | [] => some (s, [])
  | b :: rest => do
    let (next, replies) ← s.batch? b.clock b.connection b.text
    let (last, others) ← next.converse rest
    return (last, replies :: others)

/-- No answer is on its way over any open connection. -/
def Quiet (s : Service) : Prop :=
  ∀ name connection, s.connections.lookup name = some connection → connection.Quiet

end Service

/-- What a collector holds after each of several batches that are executed one after the other, and
the fault that ended a batch as one reply more. -/
def Catalog.runEach (c : Catalog) : List Batch → Except Fault (Catalog × List (List Reply))
  | [] => .ok (c, [])
  | b :: rest => do
    let o := c.runBatch b.clock b.text
    let collector ← o.frames.foldlM Collector.push {}
    let (last, others) ← o.catalog.runEach rest
    return (last, (collector.replies ++ o.fault.toList.map fun f => .fault f.message) :: others)

/-! ## Lemmas -/

/-! ### Rows come after their header -/

namespace Frame

theorem led_of_led_false {frames : List Frame} (h : led false frames = true) (begun : Bool) :
    led begun frames = true := by
  cases frames with
  | nil => rfl
  | cons frame rest => cases frame <;> first | exact h | cases h

theorem led_append {others : List Frame} (hothers : led false others = true)
    (frames : List Frame) :
    ∀ {begun : Bool}, led begun frames = true → led begun (frames ++ others) = true := by
  induction frames with
  | nil => intro begun _; exact led_of_led_false hothers begun
  | cons frame rest ih =>
    intro begun h
    cases frame with
    | row cells =>
      obtain ⟨hbegun, hrest⟩ := Bool.and_eq_true_iff.1 h
      exact Bool.and_eq_true_iff.2 ⟨hbegun, ih hrest⟩
    | header names => exact @ih true h
    | result lastId n => exact @ih false h
    | fault message => exact @ih false h
    | done => exact @ih false h

theorem led_rows {others : List Frame} (hothers : led true others = true)
    (rows : List (List String)) : led true (rows.map .row ++ others) = true := by
  induction rows with
  | nil => exact hothers
  | cons cells rest ih => exact ih

end Frame

/-- No frame is refused where rows come after their header. -/
theorem Collector.foldlM_push (frames : List Frame) :
    ∀ {c : Collector}, Frame.led c.pending.isSome frames = true →
      frames.foldlM push c = .ok (frames.foldl take c) := by
  induction frames with
  | nil => intro c _; rfl
  | cons frame rest ih =>
    intro c h
    have hstep : ∃ next, c.push frame = .ok next ∧ Frame.led next.pending.isSome rest = true := by
      obtain ⟨complete, pending⟩ := c
      cases frame with
      | row cells =>
        cases pending with
        | none => cases h
        | some p => exact ⟨_, rfl, h⟩
      | header names => exact ⟨_, rfl, h⟩
      | result lastId n => exact ⟨_, rfl, h⟩
      | fault message => exact ⟨_, rfl, h⟩
      | done => cases pending <;> exact ⟨_, rfl, h⟩
    obtain ⟨next, hnext, hled⟩ := hstep
    have htake : c.take frame = next := by rw [take, hnext]
    rw [List.foldlM_cons, hnext, List.foldl_cons, htake]
    exact ih hled

namespace Stage

/-- A header comes through stages as a header. -/
theorem passThrough_header (names : List String) :
    ∀ stages, ∃ stages' names',
      passThrough stages (.header names) = (stages', some (.header names')) := by
  intro stages
  induction stages generalizing names with
  | nil => exact ⟨[], names, rfl⟩
  | cons stage rest ih =>
    obtain ⟨stage', names', hstage⟩ :
        ∃ stage' names', pass stage (.header names) = (stage', some (.header names')) := by
      cases stage <;> exact ⟨_, _, rfl⟩
    obtain ⟨rest', names'', hrest⟩ := ih names'
    refine ⟨stage' :: rest', names'', ?_⟩
    rw [passThrough, hstage]
    dsimp only
    rw [hrest]

/-- A row comes through stages as a row, or not at all. -/
theorem passThrough_row (cells : List String) :
    ∀ stages, (passThrough stages (.row cells)).2 = none ∨
      ∃ cells', (passThrough stages (.row cells)).2 = some (.row cells') := by
  intro stages
  induction stages generalizing cells with
  | nil => exact .inr ⟨cells, rfl⟩
  | cons stage rest ih =>
    have hstage : (pass stage (.row cells)).2 = none ∨
        ∃ cells', (pass stage (.row cells)).2 = some (.row cells') := by
      cases stage with
      | distinct on seen =>
        simp only [pass]
        split
        · exact .inr ⟨_, rfl⟩
        · exact .inl rfl
      | offset skip dropped =>
        simp only [pass]
        split
        · exact .inl rfl
        · exact .inr ⟨_, rfl⟩
      | limit most passed =>
        simp only [pass]
        split
        · exact .inr ⟨_, rfl⟩
        · exact .inl rfl
    rw [passThrough]
    generalize pass stage (.row cells) = p at hstage
    obtain ⟨stage', out⟩ := p
    rcases hstage with hnone | ⟨cells', hsome⟩
    · obtain rfl : out = none := hnone
      exact .inl rfl
    · obtain rfl : out = some (.row cells') := hsome
      exact ih cells'

/-- Rows that come through stages come after their header. -/
theorem passAll_led (frames : List Frame) :
    ∀ {begun : Bool} (stages : List Stage), Frame.led begun frames = true →
      Frame.led begun (passAll stages frames) = true := by
  induction frames with
  | nil => intro begun stages _; rfl
  | cons frame rest ih =>
    intro begun stages h
    rw [passAll]
    cases frame with
    | header names =>
      obtain ⟨stages', names', hpass⟩ := passThrough_header names stages
      rw [hpass]
      exact @ih true stages' h
    | row cells =>
      obtain ⟨rfl, hrest⟩ := Bool.and_eq_true_iff.1 h
      rcases passThrough_row cells stages with hpass | ⟨cells', hpass⟩
      · simp only [hpass]
        exact ih _ hrest
      · simp only [hpass]
        exact ih _ hrest
    | result lastId n =>
      rw [passThrough_of_pass fun stage => by cases stage <;> rfl]
      exact @ih false stages h
    | fault message =>
      rw [passThrough_of_pass fun stage => by cases stage <;> rfl]
      exact @ih false stages h
    | done =>
      rw [passThrough_of_pass fun stage => by cases stage <;> rfl]
      exact @ih false stages h

end Stage

/-- An answer is a header, then rows, and their end if no fault came. -/
theorem Answer.frames_eq (a : Answer) (records : List Record) (ended : Option Fault) :
    ∃ (header : List String) (rows : List (List String)) (last : List Frame),
      (a.frames records ended).1 = .header header :: (rows.map .row ++ last) ∧
        (last = [] ∨ last = [.done]) := by
  cases a with
  | cells l =>
    simp only [frames]
    cases (mapRecords l.project ended records).2 with
    | some fault =>
      by_cases hsort : l.sort.isEmpty = true
      · refine ⟨l.header, (mapRecords l.project ended records).1.map (·.2), [], ?_, .inl rfl⟩
        simp [hsort, Function.comp_def]
      · exact ⟨l.header, [], [], by simp [hsort], .inl rfl⟩
    | none =>
      by_cases hsort : l.sort.isEmpty = true
      · refine ⟨l.header, (mapRecords l.project ended records).1.map (·.2), [.done], ?_, .inr rfl⟩
        simp [hsort, Function.comp_def]
      · exact ⟨l.header, l.sorted (mapRecords l.project ended records).1, [.done],
          by simp [hsort], .inr rfl⟩
  | count t =>
    simp only [frames]
    cases (mapRecords t.counts ended records).2 with
    | some fault => exact ⟨[t.header], [], [], rfl, .inl rfl⟩
    | none =>
      exact ⟨[t.header], [[toString ((mapRecords t.counts ended records).1.count true)]], [.done],
        rfl, .inr rfl⟩

theorem Answer.frames_led (a : Answer) (records : List Record) (ended : Option Fault) :
    Frame.led false (a.frames records ended).1 = true := by
  obtain ⟨header, rows, last, hframes, hlast⟩ := a.frames_eq records ended
  rw [hframes]
  refine Frame.led_rows ?_ rows
  rcases hlast with rfl | rfl <;> rfl

/-- The rows of a SELECT come after its header. -/
theorem Select.execute_led (now : String) (s : Select) (c : Catalog) :
    Frame.led false (s.execute now c).frames = true := by
  unfold execute
  split
  · rfl
  · next q hq => exact Stage.passAll_led _ q.stages (Answer.frames_led q.answer _ _)

/-- The rows that an INSERT returns come after their header. -/
theorem Insert.execute_led (times : Times) (s : Insert) (c : Catalog) :
    Frame.led false (Outcome.ofAction (s.execute times) c).frames = true := by
  obtain ⟨hnone, -⟩ | ⟨inserted, hframes⟩ := execute_frames times s c
  · rw [hnone]
    rfl
  · rw [hframes]
    unfold answer
    split
    · next column =>
      have hmap (vs : List Value) : vs.map (fun v => Frame.row [v.canonical]) =
          (vs.map fun v => [v.canonical]).map .row := by
        rw [List.map_map]
        rfl
      rw [hmap]
      exact @Frame.led_rows [.done] rfl _
    · rfl

namespace Statement

theorem execute_led (times : Times) (s : Statement) (c : Catalog) :
    Frame.led false (s.execute times c).frames = true := by
  have hplain : ∀ clause, Frame.led false (s.executeUnguarded times clause c).frames = true := by
    intro clause
    rcases executeUnguarded_answer times clause s c with ⟨i, hi⟩ | ⟨q, hq⟩ | ⟨hnone, -⟩ | ⟨n, hn⟩
    · rw [hi]
      exact Insert.execute_led times i c
    · rw [hq]
      exact Select.execute_led (times 0) q c
    · rw [hnone]
      rfl
    · rw [hn]
      rfl
  rw [execute_eq]
  dsimp only
  split
  · exact @Frame.led_append [.result 0 0] rfl _ _ (hplain _)
  · exact hplain _

/-- Rows come after their header in the answer to every batch. -/
theorem executeAll_led (clock : Calendar.Clock) (statements : List Statement) :
    ∀ (i : Nat) (c : Catalog),
      Frame.led false (executeAll clock i statements c).frames = true := by
  induction statements with
  | nil => intro i c; rfl
  | cons s rest ih =>
    intro i c
    have hfirst := execute_led (clock i) s c
    rw [executeAll_cons]
    by_cases hfault : (s.execute (clock i) c).fault = none
    · rw [Outcome.andThen_of_none hfault]
      exact Frame.led_append (ih (i + 1) _) _ hfirst
    · rw [Outcome.andThen_of_fault hfault]
      exact hfirst

end Statement

theorem Catalog.runBatch_led (clock : Calendar.Clock) (text : String) (c : Catalog) :
    Frame.led false (c.runBatch clock text).frames = true := by
  unfold runBatch
  split
  · rfl
  · exact Statement.executeAll_led clock _ 0 c

/-! ### Moves of an exchange -/

namespace Exchange

variable {capacity : Nat} {whole replies : Collector} {e next : Exchange}

/-- A frame that is the next to be taken is not refused, and what is left is on its way. -/
theorem Toward.frame {room : Nat} {unsent underWay : List Signal} {f : Frame}
    (h : Toward capacity whole ⟨⟨room, unsent, .frame f :: underWay⟩, .waiting replies⟩) :
    ∃ taken, replies.push f = .ok taken ∧
      Toward capacity whole ⟨⟨room, unsent, underWay⟩, .waiting taken⟩ := by
  cases h with
  | @waiting _ _ frames _ hsignals hpush =>
    cases frames with
    | nil => cases hsignals
    | cons g frames =>
      rw [List.map_cons, List.cons_append, List.cons_append] at hsignals
      obtain ⟨hframe, hrest⟩ := List.cons.inj hsignals
      obtain rfl := Signal.frame.inj hframe
      rw [List.foldlM_cons] at hpush
      obtain ⟨taken, htaken, hlater⟩ := bind_eq_ok.1 hpush
      exact ⟨taken, htaken, .waiting hrest hlater⟩

/-- When the word comes that the batch is answered, nothing else is on its way. -/
theorem Toward.last {room : Nat} {unsent underWay : List Signal}
    (h : Toward capacity whole ⟨⟨room, unsent, .answered :: underWay⟩, .waiting replies⟩) :
    Toward capacity whole ⟨⟨room, unsent, underWay⟩, .answered replies.replies⟩ := by
  cases h with
  | @waiting _ _ frames _ hsignals hpush =>
    cases frames with
    | nil =>
      have hnil : underWay ++ unsent = [] := (List.cons.inj hsignals).2
      obtain ⟨rfl, rfl⟩ := List.append_eq_nil_iff.1 hnil
      obtain rfl := Except.ok.inj hpush
      exact .answered
    | cons g frames => cases hsignals

/-- Whatever moves, the client goes on towards the same replies. -/
theorem Toward.move (h : Toward capacity whole e) (hmove : Move e next) :
    Toward capacity whole next := by
  cases hmove with
  | send hroom =>
    cases h with
    | waiting hsignals hpush => exact .waiting (by simpa using hsignals) hpush
  | take htaken =>
    obtain ⟨taken, hsame, hrest⟩ := h.frame
    obtain rfl := Except.ok.inj (htaken.symm.trans hsame)
    exact hrest
  | refuse hrefused =>
    obtain ⟨taken, hsame, -⟩ := h.frame
    cases hrefused.symm.trans hsame
  | finish => exact h.last

theorem Toward.moves (h : Toward capacity whole e) (hmoves : e.Moves next) :
    Toward capacity whole next := by
  induction hmoves with
  | refl => exact h
  | tail _ hmove ih => exact ih.move hmove

/-- Where nothing can move any more, the client has its answer, and nothing is on its way. -/
theorem Toward.over (hroom : 0 < capacity) (h : Toward capacity whole e) (hover : e.Over) :
    e = ⟨⟨capacity, [], []⟩, .answered whole.replies⟩ := by
  cases h with
  | answered => rfl
  | @waiting unsent underWay frames replies hsignals hpush =>
    exfalso
    cases underWay with
    | nil =>
      cases unsent with
      | nil => simp at hsignals
      | cons signal unsent => exact hover _ (.send hroom)
    | cons signal underWay =>
      cases signal with
      | answered => exact hover _ .finish
      | frame f =>
        have htoward : Toward capacity whole
            ⟨⟨capacity, unsent, .frame f :: underWay⟩, .waiting replies⟩ := .waiting hsignals hpush
        obtain ⟨taken, htaken, -⟩ := htoward.frame
        exact hover _ (.take htaken)

/-- Every move leaves fewer to come. -/
theorem Move.left_lt (h : Move e next) : next.left < e.left := by
  cases h with
  | send _ => simp [left]; omega
  | take _ => simp [left]
  | refuse _ => simp [left]
  | finish => simp [left]

/-- No exchange goes on for ever. -/
theorem wellFounded_move : WellFounded fun next e => Move e next :=
  Subrelation.wf (fun h => h.left_lt) (measure left).wf

/-- The order in which `Connection.receive` moves is one that may be. -/
theorem Toward.receive {c : Connection} (hroom : 0 < c.capacity)
    (h : Toward capacity whole ⟨c, .waiting replies⟩) :
    Moves ⟨c, .waiting replies⟩
      ⟨(c.receive replies).1, .answered (c.receive replies).2.replies⟩ := by
  fun_induction Connection.receive c replies with
  | case1 replies room signal unsent underWay hlt ih =>
    exact .head (.send hlt) (ih hroom (h.move (.send hlt)))
  | case2 => exact absurd hroom ‹_›
  | case3 => exact .single .finish
  | case4 replies room signal unsent f rest hfull ih =>
    obtain ⟨taken, htaken, hrest⟩ := h.frame
    have htake : replies.take f = taken := by rw [Collector.take, htaken]
    rw [htake] at ih ⊢
    exact .head (.take htaken) (ih hroom hrest)
  | case5 =>
    cases h with
    | waiting hsignals _ => simp at hsignals
  | case6 => exact .single .finish
  | case7 replies room f rest ih =>
    obtain ⟨taken, htaken, hrest⟩ := h.frame
    have htake : replies.take f = taken := by rw [Collector.take, htaken]
    rw [htake] at ih ⊢
    exact .head (.take htaken) (ih hroom hrest)

end Exchange

/-- The replies to an outcome, its fault as one reply more. -/
def Outcome.heard (o : Outcome) : List Reply :=
  Collector.collect o.frames ++ o.fault.toList.map fun f => .fault f.message

namespace Exchange

variable {connection : Connection} {o : Outcome}

/-- A client that has its answer waits for nothing more. -/
theorem over_answered (hquiet : connection.Quiet) (replies : List Reply) :
    Over ⟨connection, .answered replies⟩ := by
  obtain ⟨capacity, unsent, underWay⟩ := connection
  obtain ⟨-, rfl, rfl⟩ := hquiet
  intro next hmove
  cases hmove

/-- An answer whose rows come after their header is on its way to what is heard of it. -/
theorem begin_toward (hquiet : connection.Quiet) (hled : Frame.led false o.frames = true) :
    ∃ whole, whole.replies = o.heard ∧ Toward connection.capacity whole (begin connection o) := by
  have hsignals : connection.underWay ++ (connection.unsent ++ o.signals) =
      (o.frames ++ o.fault.toList.map fun f => Frame.fault f.message).map Signal.frame ++
        [.answered] := by
    rw [hquiet.underWay, hquiet.unsent]
    simp [Outcome.signals, Function.comp_def]
  have hfault : Frame.led false (o.fault.toList.map fun f => Frame.fault f.message) = true := by
    cases o.fault <;> rfl
  refine ⟨_, ?_, .waiting hsignals (Collector.foldlM_push _ (Frame.led_append hfault _ hled))⟩
  rw [List.foldl_append, Outcome.heard, Collector.collect]
  generalize o.frames.foldl Collector.take {} = c
  cases o.fault with
  | none => simp
  | some f => rfl

/-- Every order in which an exchange may move ends with the same answer, and leaves the connection
as it was. -/
theorem over_unique (hquiet : connection.Quiet) (hled : Frame.led false o.frames = true)
    {e : Exchange} (hmoves : (begin connection o).Moves e) (hover : e.Over) :
    e = ⟨connection, .answered o.heard⟩ := by
  obtain ⟨whole, hwhole, htoward⟩ := begin_toward hquiet hled
  obtain ⟨capacity, unsent, underWay⟩ := connection
  obtain ⟨hroom, rfl, rfl⟩ := hquiet
  rw [(htoward.moves hmoves).over hroom hover, hwhole]

/-- The answer that a connection gives is the end of one such order. -/
theorem answer_eq (hquiet : connection.Quiet) (hled : Frame.led false o.frames = true) :
    (begin connection o).Moves ⟨connection, .answered o.heard⟩ ∧
      connection.answer o = (connection, o.heard) := by
  obtain ⟨whole, hwhole, htoward⟩ := begin_toward hquiet hled
  have hmoves := htoward.receive (c := connection.send o.signals) hquiet.room
  have hlast := htoward.moves hmoves
  have hanswer : connection.answer o = (((connection.send o.signals).receive {}).1,
      ((connection.send o.signals).receive {}).2.replies) := rfl
  rw [hanswer]
  generalize (connection.send o.signals).receive {} = last at hmoves hlast ⊢
  obtain ⟨c, collector⟩ := last
  dsimp only at hmoves hlast ⊢
  generalize collector.replies = replies at hmoves hlast ⊢
  obtain ⟨capacity, unsent, underWay⟩ := connection
  obtain ⟨hroom, rfl, rfl⟩ := hquiet
  cases hlast with
  | answered =>
    rw [hwhole] at hmoves ⊢
    exact ⟨hmoves, rfl⟩

end Exchange

/-! ### Services -/

namespace Service

variable {s next : Service}

/-- A connection that is put back in its place is found there, and every other one as before. -/
theorem lookup_without_append {name : String} {connection : Connection} (other : String) :
    (s.without name ++ [(name, connection)]).lookup other =
      if other = name then some connection else s.connections.lookup other := by
  rw [List.lookup_append, without, lookup_filter_ne, lookup_cons_ite]
  by_cases h : other = name
  · rw [if_pos h, if_pos h, if_pos h]
    rfl
  · rw [if_neg h, if_neg h, if_neg h]
    cases s.connections.lookup other <;> rfl

/-- A batch leaves connections that are quiet as they were. -/
theorem Quiet.batch? (hs : s.Quiet) {clock : Calendar.Clock} {name text : String}
    {connection : Connection} (hopen : s.connections.lookup name = some connection) :
    s.batch? clock name text =
      some ({ (s.execute clock text).1 with
        connections := s.without name ++ [(name, connection)] },
        (s.execute clock text).2.heard) := by
  have hanswer := (Exchange.answer_eq (hs name connection hopen)
    (Catalog.runBatch_led clock text s.catalog)).2
  rw [Service.batch?, hopen]
  dsimp only [execute]
  rw [hanswer]
  rfl

theorem Quiet.put (hs : s.Quiet) {name : String} {connection : Connection}
    (hconnection : connection.Quiet) {t : Service}
    (ht : t.connections = s.without name ++ [(name, connection)]) : t.Quiet := by
  intro other c hc
  rw [ht, lookup_without_append] at hc
  split at hc
  · obtain rfl := Option.some.inj hc
    exact hconnection
  · exact hs other c hc

theorem listen_connections (h : s.listen = .ok next) : next.connections = s.connections := by
  unfold listen at h
  split at h
  · cases h
  · split at h
    · cases h
    · obtain rfl := Except.ok.inj h
      rfl

theorem start_connections {config : Config} (h : start config = .ok s) : s.connections = [] := by
  simp only [start, new, bind_eq_ok, pure_eq_ok] at h
  obtain ⟨_, ⟨_, -, rfl⟩, h⟩ := h
  exact listen_connections h

/-- Between batches no answer is on its way. -/
theorem Reachable.quiet (h : s.Reachable) : s.Quiet := by
  induction h with
  | start hstart =>
    intro name connection hopen
    rw [start_connections hstart] at hopen
    cases hopen
  | listen _ hlisten ih =>
    intro name connection hopen
    rw [listen_connections hlisten] at hopen
    exact ih name connection hopen
  | execute clock text _ ih => exact ih
  | connect name _ hconnect ih =>
    unfold Service.connect at hconnect
    split at hconnect
    · obtain rfl := Except.ok.inj hconnect
      exact ih.put ⟨Nat.lt_of_lt_of_le Nat.one_pos (Nat.le_max_left 1 _), rfl, rfl⟩ rfl
    · cases hconnect
  | @batch s next clock name text replies _ hbatch ih =>
    cases hopen : s.connections.lookup name with
    | none =>
      rw [Service.batch?, hopen] at hbatch
      cases hbatch
    | some connection =>
      rw [ih.batch? hopen] at hbatch
      obtain ⟨rfl, -⟩ := Prod.mk.inj (Option.some.inj hbatch)
      exact ih.put (ih name connection hopen) rfl
  | close name _ ih =>
    intro other connection hopen
    have hopen := (lookup_filter_ne name other _).symm.trans hopen
    split at hopen
    · cases hopen
    · exact ih other connection hopen
  | closeEndpoint _ ih => exact ih
  | @stop s _ ih =>
    intro name connection hopen
    have hstop : s.stop.connections = if s.config.shutdown.waits then [] else s.connections := rfl
    rw [hstop] at hopen
    split at hopen
    · cases hopen
    · exact ih name connection hopen

end Service

/-- Of each batch is heard what is heard of it alone. -/
theorem Catalog.runEach_cons (c : Catalog) (b : Batch) (rest : List Batch) :
    c.runEach (b :: rest) =
      ((c.runBatch b.clock b.text).catalog.runEach rest >>= fun p =>
        .ok (p.1, (c.runBatch b.clock b.text).heard :: p.2)) := by
  have hpush : (c.runBatch b.clock b.text).frames.foldlM Collector.push {} =
      .ok ((c.runBatch b.clock b.text).frames.foldl Collector.take {}) :=
    Collector.foldlM_push _ (runBatch_led b.clock b.text c)
  rw [runEach]
  dsimp only
  rw [hpush]
  rfl

namespace Service

variable {s : Service}

/-- One exchange after the other, whatever the order in which each of them moves. -/
theorem Quiet.served (batches : List Batch) :
    ∀ {s : Service}, s.Quiet →
      (∀ b ∈ batches, (s.connections.lookup b.connection).isSome = true) →
      ∃ c replies, s.catalog.runEach batches = .ok (c, replies) ∧
        (∃ last, s.converse batches = some (last, replies) ∧
          s.Served batches last (replies.map .answered)) ∧
        ∀ last clients, s.Served batches last clients →
          clients = replies.map .answered ∧
          last = { s with catalog := c, connections := last.connections } ∧
          ∀ name, last.connections.lookup name = s.connections.lookup name := by
  induction batches with
  | nil =>
    intro s _ _
    refine ⟨s.catalog, [], rfl, ⟨s, rfl, .nil⟩, fun last clients hserved => ?_⟩
    cases hserved
    exact ⟨rfl, rfl, fun _ => rfl⟩
  | cons b rest ih =>
    intro s hs hopen
    obtain ⟨connection, hconnection⟩ := Option.isSome_iff_exists.1 (hopen b List.mem_cons_self)
    have hquiet := hs b.connection connection hconnection
    have hled := Catalog.runBatch_led b.clock b.text s.catalog
    -- the service after the first batch, with its connection put back in its place
    let t : Service := { (s.execute b.clock b.text).1 with
      connections := s.without b.connection ++ [(b.connection, connection)] }
    have ht : ∀ name, t.connections.lookup name = s.connections.lookup name := by
      intro name
      rw [lookup_without_append]
      split
      · next h => rw [h, hconnection]
      · rfl
    obtain ⟨c, replies, heach, ⟨last, hconverse, hserved⟩, hunique⟩ :=
      ih (hs.put hquiet (t := t) rfl) fun b' hb' => by
        rw [ht]
        exact hopen b' (List.mem_cons_of_mem b hb')
    have hanswer := Exchange.answer_eq hquiet hled
    refine ⟨c, (s.catalog.runBatch b.clock b.text).heard :: replies, ?_, ⟨last, ?_, ?_⟩, ?_⟩
    · rw [Catalog.runEach_cons]
      exact bind_eq_ok.2 ⟨_, heach, rfl⟩
    · rw [converse, hs.batch? hconnection]
      exact Option.bind_eq_some_iff.2 ⟨_, rfl, Option.bind_eq_some_iff.2 ⟨_, hconverse, rfl⟩⟩
    · exact .cons hconnection hanswer.1 (Exchange.over_answered hquiet _) hserved
    · intro last clients hserved
      cases hserved with
      | cons hconnection' hmoves hover hrest =>
        obtain rfl := Option.some.inj (hconnection'.symm.trans hconnection)
        obtain rfl := Exchange.over_unique hquiet hled hmoves hover
        obtain ⟨rfl, hlast, hlookup⟩ := hunique _ _ hrest
        refine ⟨rfl, hlast, fun name => ?_⟩
        rw [hlookup, ht]

/-! ## Top theorem -/

/-- Batches that come one at a time over connections of a service, any of them in any order: what a
collector holds of each batch when it is executed without a connection, with the fault that ended
it as one reply more, is what its client hears, in whatever order signals are sent and taken.  The
catalog is the same afterwards, and so is every connection.  No exchange goes on for ever. -/
theorem Reachable.served_directly {s : Service} (h : s.Reachable) (batches : List Batch)
    (hopen : ∀ b ∈ batches, (s.connections.lookup b.connection).isSome = true) :
    (∃ c replies, s.catalog.runEach batches = .ok (c, replies) ∧
      (∃ last, s.converse batches = some (last, replies) ∧
        s.Served batches last (replies.map .answered)) ∧
      ∀ last clients, s.Served batches last clients →
        clients = replies.map .answered ∧
        last = { s with catalog := c, connections := last.connections } ∧
        ∀ name, last.connections.lookup name = s.connections.lookup name) ∧
    WellFounded fun next e => Exchange.Move e next :=
  ⟨h.quiet.served batches hopen, Exchange.wellFounded_move⟩

end Service

/-- Two clients on connections with room for one signal.  The second batch fails after its header,
and its client hears the header and the fault; the first client hears nothing of it. -/
theorem served_directly_of_cut_rows :
    let clock : Calendar.Clock := fun _ _ => ""
    let s : Service :=
      { config := { channelCapacity := 1 }, listening := true
        connections := [("one", { capacity := 1 }), ("two", { capacity := 1 })] }
    let batches : List Batch :=
      [⟨"one", "CREATE TABLE a (x int); CREATE TABLE b (x int);" ++
          "INSERT INTO a (x) VALUES (1); INSERT INTO b (x) VALUES (1)", clock⟩,
        ⟨"two", "SELECT a.x FROM a JOIN b ON b.x = b.x; DROP TABLE a", clock⟩,
        ⟨"one", "SELECT x FROM a", clock⟩]
    (∀ b ∈ batches, (s.connections.lookup b.connection).isSome = true) ∧ s.Reachable ∧
    ∃ last, s.Served batches last
      [.answered [.result 0 1, .result 0 1, .result 0 1, .result 0 1],
        .answered [.rows ["x"] [], .fault "attribute b.x not found in row"],
        .answered [.rows ["x"] [["1"]]]] := by
  intro clock s batches
  have hopen : ∀ b ∈ batches, (s.connections.lookup b.connection).isSome = true := by decide
  have hstart : Service.start { channelCapacity := 1 } =
      .ok { config := { channelCapacity := 1 }, listening := true } := rfl
  have hreachable : s.Reachable :=
    .connect "two" (.connect "one" (.start hstart) rfl) rfl
  have heach : (s.catalog.runEach batches).map (·.2) =
      .ok [[.result 0 1, .result 0 1, .result 0 1, .result 0 1],
        [.rows ["x"] [], .fault "attribute b.x not found in row"], [.rows ["x"] [["1"]]]] := by
    decide +kernel
  obtain ⟨⟨c, replies, hruns, ⟨last, -, hserved⟩, -⟩, -⟩ :=
    Service.Reachable.served_directly hreachable batches hopen
  rw [hruns] at heach
  obtain rfl := Except.ok.inj heach
  exact ⟨hopen, hreachable, last, hserved⟩

end Tabula
