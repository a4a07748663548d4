import Tabula.Proofs.Exchange
import Tabula.Shell

/-!
# Blank lines in a session of the shell

The shell gathers every line that is no command, blank lines too.  Blanks before a batch say
nothing, but a shell that has gathered some takes no command any more until a line ends in a
semicolon.

* `Statement.parseFrom_later`, `Statement.parseFrom_blanks`: a text after blanks is read as if it
  stood alone, and a character at which it is stuck stands so much later.
* `Shell.session_eq`: what the shell writes is its prompts and its reactions to lines.
* `Shell.step_cases`: a line is a command, or gathered, or gathered and sent.
* `Shell.reactions_twins`: shells that have gathered texts that are read alike go on alike.
* `Shell.reactions_refused`: what begins with a point comes to nothing up to the next semicolon, and
  is refused with it.
* `Shell.blank_line_inserted`: what a blank line changes where no statement is pending.
-/

namespace Tabula

/-! ## Algorithm -/

/-- The statements of a text that begins at a position. -/
def Statement.parseFrom (position : Nat) (cs : List Char) : Except Fault (List Statement) := do
  let tokens ← Token.scanFrom position cs
  ofTokens (Token.withoutSpaces tokens)

namespace Shell

/-- A line of blanks. -/
def IsBlank (line : String) : Prop :=
  ∀ c ∈ line.toList, Text.isBlank c = true

/-- A line that is a command if nothing was gathered before it. -/
def IsCommand (line : String) : Prop :=
  (Text.trim line.toList).head? = some '.'

/-- A line that ends a batch. -/
def EndsBatch (line : String) : Prop :=
  (Text.trim line.toList).getLast? = some ';'

/-- What the shell shows of a batch that is refused. -/
def refusal (f : Fault) : Output :=
  showReplies [.fault f.message]

/-- What a command comes to: the service, unless the shell is left, and what is shown. -/
def carriedOut (s : Shell) (line : String) : Option Service × Output :=
  let word := String.ofList (Text.trim line.toList)
  if word == ".exit" || word == ".quit" then (none, {}) else (some s.service, s.command word)

variable (clocks : Nat → Calendar.Clock)

/-- The shell after lines, if none of them leaves it. -/
def after? : Nat → List String → Shell → Option Shell
  | _, [], s => some s
  | i, line :: rest, s => (s.step (clocks i) line).1.bind (after? (i + 1) rest)

/-- What each line comes to, prompts aside: the service, unless the shell is left, and what is
shown. -/
def reactions : Nat → List String → Shell → List (Option Service × Output)
  | _, [], _ => []
  | i, line :: rest, s =>
    match s.step (clocks i) line with
    | (none, shown) => [(none, shown)]
    | (some next, shown) => (some next.service, shown) :: reactions (i + 1) rest next

/-- The prompts that are shown before each line and at the end of the input. -/
def prompts : Nat → List String → Shell → List String
  | _, [], s => [s.prompt]
  | i, line :: rest, s =>
    match s.step (clocks i) line with
    | (none, _) => [s.prompt]
    | (some next, _) => s.prompt :: prompts (i + 1) rest next

/-- Prompts with what is shown after each. -/
def woven : List String → List (Option Service × Output) → Output
  | prompt :: prompts, (_, shown) :: others => { out := prompt } ++ shown ++ woven prompts others
  | prompt :: _, [] => { out := prompt }
  | [], _ => {}

/-- Lines after which no statement is pending: since the beginning, or since a batch was sent, there
were only blank lines and commands. -/
def Idle (start : Shell) (front : List String) : Prop :=
  ∃ (before idle : List String) (s : Shell), front = before ++ idle ∧
    after? clocks 0 before start = some s ∧ s.pending = "" ∧
    ∀ line ∈ idle, IsBlank line ∨ IsCommand line

/-- The clocks of a session with one line more, at place `n`. -/
def insertClock (n : Nat) (clock : Calendar.Clock) (i : Nat) : Calendar.Clock :=
  if i < n then clocks i else if i = n then clock else clocks (i - 1)

/-- The same reactions but for the wording of one refusal, which leaves the service as it was. -/
def Reworded (service : Service) (f f' : Fault) (rs rs' : List (Option Service × Output)) : Prop :=
  ∃ before later, rs = before ++ (some service, refusal f) :: later ∧
    rs' = before ++ (some service, refusal f') :: later

/-- Lines that come to nothing up to the next that ends in a semicolon, if there is one: with it
they are refused as one batch.  From there on the shell has gathered nothing. -/
def Swallowed (i : Nat) (lines : List String) (service : Service)
    (rs : List (Option Service × Output)) : Prop :=
  rs = lines.map (fun _ => (some service, {})) ∨
    ∃ gathered last rest f, lines = gathered ++ last :: rest ∧
      (∀ line ∈ gathered, ¬EndsBatch line) ∧ EndsBatch last ∧
      rs = gathered.map (fun _ => (some service, {})) ++ (some service, refusal f) ::
        reactions clocks (i + gathered.length + 1) rest { service }

/-- Two texts of which every continuation is read alike, or refused with faults that are related. -/
def Twins (R : Fault → Fault → Prop) (p p' : String) : Prop :=
  ∀ text, Statement.parse (p' ++ text) = Statement.parse (p ++ text) ∨
    ∃ f f', Statement.parse (p ++ text) = .error f ∧ Statement.parse (p' ++ text) = .error f' ∧
      R f f'

/-- Sessions with the same clocks for the next `n` lines, from lines `i` and `j` on. -/
def SameClocks (clocks clocks' : Nat → Calendar.Clock) (i j n : Nat) : Prop :=
  ∀ k < n, clocks' (j + k) = clocks (i + k)

/-- Nothing was gathered but blanks, or a text that begins with a point after blanks. -/
def Unbegun (s : Shell) : Prop :=
  IsBlank s.pending ∨ (Text.trimStart s.pending.toList).head? = some '.'

/-- A shell whose connection is open, with no answer on its way. -/
def Ready (s : Shell) : Prop :=
  ∃ connection : Connection, connection.Quiet ∧
    s.service.connections = [(connectionName, connection)]

end Shell

/-! ## Lemmas -/

/-! ### Texts after blanks -/

namespace Statement

/-- What is wrong with tokens is worded without their positions. -/
theorem ofTokens_error {tokens : List Token} {f : Fault} (h : ofTokens tokens = .error f)
    (n : Nat) : f.moved n = f := by
  unfold ofTokens at h
  split at h
  · cases h
  · obtain rfl := Except.error.inj h
    rfl

/-- A text is the same statements wherever it begins, or has the same fault, moved along with it. -/
theorem parseFrom_later (position n : Nat) (cs : List Char) :
    parseFrom (position + n) cs = (parseFrom position cs).mapError (Fault.moved n) := by
  unfold parseFrom
  rw [Token.scanFrom_later]
  cases Token.scanFrom position cs with
  | error f => rfl
  | ok tokens =>
    have hmoved := withoutSpaces_moved (· + n) tokens
    show ofTokens (Token.withoutSpaces (tokens.map (Token.moved (· + n)))) =
      (ofTokens (Token.withoutSpaces tokens)).mapError (Fault.moved n)
    rw [hmoved, ofTokens_moved]
    cases hread : ofTokens (Token.withoutSpaces tokens) with
    | ok statements => rfl
    | error f => exact congrArg Except.error (ofTokens_error hread n).symm

/-- The blanks at the beginning of a text are passed over. -/
theorem parseFrom_dropBlanks (position : Nat) (cs : List Char) :
    parseFrom position cs =
      parseFrom (position + (cs.takeWhile Text.isBlank).length) (cs.dropWhile Text.isBlank) := by
  have hmap (position : Nat) (cs : List Char) : parseFrom position cs =
      (Token.withoutSpaces <$> Token.scanFrom position cs) >>= ofTokens := by
    rw [bind_map_left]
    rfl
  rw [hmap, Token.scanFrom_dropBlanks, ← hmap]

/-- A text after blanks is read as if it began there. -/
theorem parseFrom_blanks {blanks : List Char} (h : ∀ c ∈ blanks, Text.isBlank c = true)
    (position : Nat) (cs : List Char) :
    parseFrom position (blanks ++ cs) = parseFrom (position + blanks.length) cs := by
  rw [parseFrom_dropBlanks, List.takeWhile_append_of_pos h, List.dropWhile_append_of_pos h,
    List.length_append, ← Nat.add_assoc, ← parseFrom_dropBlanks]

/-- No statement begins with a point. -/
theorem parseFrom_point (position : Nat) (cs : List Char) :
    ∃ f, parseFrom position ('.' :: cs) = .error f := by
  have hfirst : Lexeme.first? ('.' :: cs) = some ⟨.period, ['.'], 1, Nat.one_pos⟩ := rfl
  rw [parseFrom, Token.scanFrom_of_first? hfirst]
  dsimp only
  cases Token.scanFrom (position + 1) (('.' :: cs).drop 1) with
  | error f => exact ⟨f, rfl⟩
  | ok tokens =>
    have hnext (tokens : List Token) :
        Reader.nextStatement? (⟨.period, ".", position⟩ :: tokens) =
          .error ⟨"expected CREATE, SELECT, INSERT, UPDATE, DELETE, TRUNCATE, DROP or GRANT",
            ⟨.period, ".", position⟩ :: tokens⟩ := rfl
    show ∃ f, ofTokens (⟨.period, ".", position⟩ :: Token.withoutSpaces tokens) = .error f
    rw [ofTokens, Reader.many, hnext]
    exact ⟨_, rfl⟩

/-- A text that begins with a point after blanks is refused. -/
theorem parse_point {text : String} (h : (Text.trimStart text.toList).head? = some '.') :
    ∃ f, parse text = .error f := by
  obtain ⟨rest, hrest⟩ := List.head?_eq_some_iff.1 h
  obtain ⟨f, hf⟩ := parseFrom_point (0 + (text.toList.takeWhile Text.isBlank).length) rest
  refine ⟨f, ?_⟩
  show parseFrom 0 text.toList = .error f
  rw [parseFrom_dropBlanks, show text.toList.dropWhile Text.isBlank = '.' :: rest from hrest, hf]

end Statement

theorem Output.append_empty (a : Output) : a ++ ({} : Output) = a := by
  obtain ⟨out, err⟩ := a
  show Output.mk (out ++ "") (err ++ "") = ⟨out, err⟩
  rw [String.append_empty, String.append_empty]

theorem Output.empty_append (a : Output) : ({} : Output) ++ a = a := by
  obtain ⟨out, err⟩ := a
  show Output.mk ("" ++ out) ("" ++ err) = ⟨out, err⟩
  rw [String.empty_append, String.empty_append]

theorem Output.append_assoc (a b c : Output) : a ++ b ++ c = a ++ (b ++ c) := by
  show Output.mk (a.out ++ b.out ++ c.out) (a.err ++ b.err ++ c.err) =
    ⟨a.out ++ (b.out ++ c.out), a.err ++ (b.err ++ c.err)⟩
  rw [String.append_assoc, String.append_assoc]

namespace Shell

/-! ### Lines -/

theorem trim_of_isBlank {line : String} (h : IsBlank line) : Text.trim line.toList = [] := by
  have hstart : Text.trimStart line.toList = [] := List.dropWhile_eq_nil_iff.2 h
  rw [Text.trim, hstart]
  rfl

/-- A command begins with a point after blanks. -/
theorem IsCommand.trimStart {line : String} (h : IsCommand line) :
    (Text.trimStart line.toList).head? = some '.' := by
  unfold IsCommand Text.trim at h
  -- what is left of a text without the blanks at its end is a beginning of it
  have hprefix : (Text.trimStart (Text.trimStart line.toList).reverse).reverse <+:
      Text.trimStart line.toList := by
    rw [← List.reverse_suffix, List.reverse_reverse]
    exact List.dropWhile_suffix _
  obtain ⟨rest, hrest⟩ := List.head?_eq_some_iff.1 h
  obtain ⟨tail, htail⟩ := hprefix
  rw [← htail, hrest]
  rfl

theorem trimStart_append_of_isBlank {p : String} (h : IsBlank p) (line : String) :
    Text.trimStart (p ++ line).toList = Text.trimStart line.toList := by
  rw [Text.trimStart, String.toList_append, List.dropWhile_append_of_pos h]
  rfl

theorem trimStart_append_of_point {p : String}
    (h : (Text.trimStart p.toList).head? = some '.') (line : String) :
    (Text.trimStart (p ++ line).toList).head? = some '.' := by
  obtain ⟨rest, hrest⟩ := List.head?_eq_some_iff.1 h
  rw [Text.trimStart, String.toList_append, List.dropWhile_append,
    show p.toList.dropWhile Text.isBlank = '.' :: rest from hrest]
  rfl

/-- No line of a text is empty. -/
theorem ne_empty_of_mem_lines {text : List Char} : ∀ line ∈ lines text, line ≠ "" := by
  have hgo (text : List Char) : ∀ begun, ∀ line ∈ lines.go begun text, line ≠ "" := by
    induction text with
    | nil =>
      intro begun line hline
      rw [lines.go] at hline
      split at hline
      · cases hline
      · next hbegun =>
        obtain rfl := List.mem_singleton.1 hline
        simpa using hbegun
    | cons c rest ih =>
      intro begun line hline
      rw [lines.go] at hline
      split at hline
      · rcases List.mem_cons.1 hline with rfl | hline
        · simp
        · exact ih [] line hline
      · exact ih (c :: begun) line hline
  exact hgo text []

/-! ### One line -/

/-- Sending a batch executes it and leaves the connection as it was. -/
theorem Ready.send {s : Shell} (hs : s.Ready) (clock : Calendar.Clock) :
    s.send clock = ({ service := (s.service.execute clock s.pending).1 },
      showReplies (s.service.execute clock s.pending).2.heard) := by
  obtain ⟨connection, hquiet, hconnections⟩ := hs
  have hopen : s.service.connections.lookup connectionName = some connection := by
    rw [hconnections]
    rfl
  have hservice : s.service.Quiet := by
    intro name other hother
    rw [hconnections, lookup_cons_ite] at hother
    split at hother
    · exact Option.some.inj hother ▸ hquiet
    · cases hother
  have hsame : s.service.without connectionName ++ [(connectionName, connection)] =
      (s.service.execute clock s.pending).1.connections := by
    show s.service.without connectionName ++ _ = s.service.connections
    rw [Service.without, hconnections]
    rfl
  rw [Shell.send, hservice.batch? hopen, hsame]

theorem Ready.of_connections {s next : Shell} (hs : s.Ready)
    (h : next.service.connections = s.service.connections) : next.Ready := by
  obtain ⟨connection, hquiet, hconnections⟩ := hs
  exact ⟨connection, hquiet, h.trans hconnections⟩

/-- A shell that starts has its connection open. -/
theorem start_ready {config : Config} {s : Shell} (h : start config = .ok s) : s.Ready := by
  simp only [start, bind_eq_ok, pure_eq_ok] at h
  obtain ⟨listening, hlistening, connected, hconnected, rfl⟩ := h
  unfold Service.connect at hconnected
  split at hconnected
  · obtain rfl := Except.ok.inj hconnected
    refine ⟨{ capacity := max 1 listening.config.channelCapacity },
      ⟨Nat.lt_of_lt_of_le Nat.one_pos (Nat.le_max_left 1 _), rfl, rfl⟩, ?_⟩
    show listening.without connectionName ++ _ = _
    rw [Service.without, Service.start_connections hlistening]
    rfl
  · cases hconnected

/-- A line is a command, or it is gathered, or it is gathered and what was gathered is sent. -/
theorem step_cases {s : Shell} (hs : s.Ready) (clock : Calendar.Clock) (line : String) :
    (s.pending = "" ∧ IsCommand line ∧
        s.step clock line = ((s.carriedOut line).1.map fun _ => s, (s.carriedOut line).2)) ∨
      (s.pending = "" → ¬IsCommand line) ∧
        (¬EndsBatch line ∧ s.step clock line = (some { s with pending := s.pending ++ line }, {}) ∨
          EndsBatch line ∧ s.step clock line =
            (some { service := (s.service.execute clock (s.pending ++ line)).1 },
              showReplies (s.service.execute clock (s.pending ++ line)).2.heard)) := by
  unfold step
  dsimp only
  split
  · next hcommand =>
    rw [Bool.and_eq_true, String.isEmpty_iff, beq_iff_eq] at hcommand
    refine .inl ⟨hcommand.1, hcommand.2, ?_⟩
    unfold carriedOut
    dsimp only
    split <;> rfl
  · next hnot =>
    rw [Bool.and_eq_true, String.isEmpty_iff, beq_iff_eq, not_and] at hnot
    refine .inr ⟨hnot, ?_⟩
    split
    · next hends =>
      have hgathered : Ready { s with pending := s.pending ++ line } := hs.of_connections rfl
      exact .inr ⟨beq_iff_eq.1 hends, by rw [hgathered.send]⟩
    · next hgoes => exact .inl ⟨fun hends => hgoes (beq_iff_eq.2 hends), rfl⟩

/-- A line leaves the shell as it was, or with the line gathered, or with what was gathered sent. -/
theorem step_next {s next : Shell} (hs : s.Ready) {clock : Calendar.Clock} {line : String}
    {shown : Output} (h : s.step clock line = (some next, shown)) :
    next = s ∨ next = { s with pending := s.pending ++ line } ∨
      next = { service := (s.service.execute clock (s.pending ++ line)).1 } := by
  rcases step_cases hs clock line with ⟨-, -, hstep⟩ | ⟨-, ⟨-, hstep⟩ | ⟨-, hstep⟩⟩
  · have hnext := congrArg Prod.fst (hstep.symm.trans h)
    obtain ⟨_, -, hsame⟩ := Option.map_eq_some_iff.1 hnext
    exact .inl hsame.symm
  · exact .inr (.inl (Option.some.inj (congrArg Prod.fst (h.symm.trans hstep))))
  · exact .inr (.inr (Option.some.inj (congrArg Prod.fst (h.symm.trans hstep))))

/-- Every line leaves the connection open. -/
theorem Ready.step {s next : Shell} (hs : s.Ready) {clock : Calendar.Clock} {line : String}
    {shown : Output} (h : s.step clock line = (some next, shown)) : next.Ready := by
  rcases step_next hs h with rfl | rfl | rfl
  · exact hs
  · exact hs.of_connections rfl
  · exact hs.of_connections rfl

/-! ### Lines one after the other -/

section

variable {clocks clocks' : Nat → Calendar.Clock}

theorem SameClocks.head {i j n : Nat} (h : SameClocks clocks clocks' i j (n + 1)) :
    clocks' j = clocks i :=
  h 0 (Nat.succ_pos n)

theorem SameClocks.tail {i j n : Nat} (h : SameClocks clocks clocks' i j (n + 1)) :
    SameClocks clocks clocks' (i + 1) (j + 1) n := by
  intro k hk
  have hnext := h (k + 1) (Nat.succ_lt_succ hk)
  rwa [Nat.add_comm k 1, ← Nat.add_assoc, ← Nat.add_assoc] at hnext

theorem reactions_cons {s next : Shell} {i : Nat} {line : String} {shown : Output}
    (h : s.step (clocks i) line = (some next, shown)) (rest : List String) :
    reactions clocks i (line :: rest) s =
      (some next.service, shown) :: reactions clocks (i + 1) rest next := by
  rw [reactions, h]

theorem reactions_leave {s : Shell} {i : Nat} {line : String} {shown : Output}
    (h : s.step (clocks i) line = (none, shown)) (rest : List String) :
    reactions clocks i (line :: rest) s = [(none, shown)] := by
  rw [reactions, h]

/-- The shell after lines is the shell after the first and then after the others. -/
theorem after?_cons {i : Nat} {line : String} {rest : List String} {s next : Shell}
    (h : after? clocks i (line :: rest) s = some next) :
    ∃ middle shown, s.step (clocks i) line = (some middle, shown) ∧
      after? clocks (i + 1) rest middle = some next := by
  obtain ⟨middle, hmiddle, hafter⟩ := Option.bind_eq_some_iff.1 h
  exact ⟨middle, _, Prod.ext hmiddle rfl, hafter⟩

/-- What the shell writes is its prompts and its reactions to lines. -/
theorem session_eq (lines : List String) : ∀ (i : Nat) (s : Shell),
    session clocks i lines s = woven (prompts clocks i lines s) (reactions clocks i lines s) := by
  induction lines with
  | nil => intro i s; rfl
  | cons line rest ih =>
    intro i s
    rw [session, prompts, reactions]
    obtain ⟨next, shown⟩ := s.step (clocks i) line
    cases next with
    | none => exact (Output.append_empty _).symm
    | some next =>
      dsimp only
      rw [ih]
      rfl

/-- Reactions depend on the clocks of the lines only. -/
theorem reactions_congr (lines : List String) : ∀ {i j : Nat} (s : Shell),
    SameClocks clocks clocks' i j lines.length →
    reactions clocks' j lines s = reactions clocks i lines s := by
  induction lines with
  | nil => intro i j s _; rfl
  | cons line rest ih =>
    intro i j s hclocks
    rw [reactions, reactions, hclocks.head]
    obtain ⟨next, shown⟩ := s.step (clocks i) line
    cases next with
    | none => rfl
    | some next => exact congrArg _ (ih next hclocks.tail)

/-- Lines that do not leave the shell come to what they come to alone, and the lines after them to
what they come to from there. -/
theorem reactions_append {next : Shell} (rest : List String) (front : List String) :
    ∀ {i j : Nat} {s : Shell}, after? clocks i front s = some next →
      SameClocks clocks clocks' i j front.length →
      (reactions clocks i front s).length = front.length ∧
        reactions clocks' j (front ++ rest) s =
          reactions clocks i front s ++ reactions clocks' (j + front.length) rest next := by
  induction front with
  | nil =>
    intro i j s h _
    obtain rfl := Option.some.inj h
    exact ⟨rfl, rfl⟩
  | cons line front ih =>
    intro i j s h hclocks
    obtain ⟨middle, shown, hstep, hafter⟩ := after?_cons h
    have hstep' : s.step (clocks' j) line = (some middle, shown) := by
      rw [hclocks.head, hstep]
    obtain ⟨hlen, hrest⟩ := ih hafter hclocks.tail
    rw [reactions_cons hstep, List.cons_append, reactions_cons hstep', hrest, List.length_cons,
      List.length_cons, hlen, Nat.add_assoc, Nat.add_comm 1]
    exact ⟨rfl, rfl⟩

theorem after?_append (before rest : List String) : ∀ (i : Nat) (s : Shell),
    after? clocks i (before ++ rest) s =
      (after? clocks i before s).bind (after? clocks (i + before.length) rest) := by
  induction before with
  | nil => intro i s; rfl
  | cons line before ih =>
    intro i s
    rw [List.cons_append, after?, after?, List.length_cons, Option.bind_assoc]
    refine congrArg _ (funext fun next => ?_)
    rw [ih, Nat.add_assoc, Nat.add_comm 1]

/-- Lines leave the connection open. -/
theorem Ready.after? (lines : List String) : ∀ {i : Nat} {s next : Shell}, s.Ready →
    Shell.after? clocks i lines s = some next → next.Ready := by
  induction lines with
  | nil =>
    intro i s next hs h
    exact Option.some.inj h ▸ hs
  | cons line rest ih =>
    intro i s next hs h
    obtain ⟨middle, shown, hstep, hafter⟩ := after?_cons h
    exact ih (hs.step hstep) hafter

/-! ### What was gathered -/

theorem execute_of_refused {s : Service} {text : String} {f : Fault} (clock : Calendar.Clock)
    (h : Statement.parse text = .error f) :
    (s.execute clock text).1 = s ∧ showReplies (s.execute clock text).2.heard = refusal f := by
  have hrun : s.catalog.runBatch clock text = ⟨s.catalog, [], some f⟩ := by
    rw [Catalog.runBatch, h]
  have hexecute : s.execute clock text = (s, ⟨s.catalog, [], some f⟩) := by
    rw [Service.execute, hrun]
  rw [hexecute]
  exact ⟨rfl, rfl⟩

theorem execute_congr {s : Service} {text text' : String} (clock : Calendar.Clock)
    (h : Statement.parse text' = Statement.parse text) :
    s.execute clock text' = s.execute clock text := by
  rw [Service.execute, Service.execute, Catalog.runBatch, Catalog.runBatch, h]

theorem Reworded.cons {service : Service} {f f' : Fault} {rs rs' : List (Option Service × Output)}
    (h : Reworded service f f' rs rs') (r : Option Service × Output) :
    Reworded service f f' (r :: rs) (r :: rs') := by
  obtain ⟨before, later, rfl, rfl⟩ := h
  exact ⟨r :: before, later, rfl, rfl⟩

theorem Twins.append {R : Fault → Fault → Prop} {p p' : String} (h : Twins R p p')
    (line : String) : Twins R (p ++ line) (p' ++ line) := by
  intro text
  rw [String.append_assoc, String.append_assoc]
  exact h (line ++ text)

/-- Shells that have gathered twins go on alike, but for the wording of one refusal. -/
theorem reactions_twins {R : Fault → Fault → Prop} (lines : List String) :
    ∀ {i j : Nat} {s : Shell} {p' : String}, s.Ready → Twins R s.pending p' → p' ≠ "" →
      (∀ line ∈ lines, line ≠ "") →
      (∀ line ∈ lines.head?, s.pending = "" → ¬IsCommand line) →
      SameClocks clocks clocks' i j lines.length →
      reactions clocks' j lines { s with pending := p' } = reactions clocks i lines s ∨
        ∃ f f', R f f' ∧ Reworded s.service f f' (reactions clocks i lines s)
          (reactions clocks' j lines { s with pending := p' }) := by
  induction lines with
  | nil => intro i j s p' _ _ _ _ _ _; exact .inl rfl
  | cons line rest ih =>
    intro i j s p' hs htwins hne hlines hgathers hclocks
    obtain ⟨hline, hrest⟩ := List.forall_mem_cons.1 hlines
    have hs' : Ready { s with pending := p' } := hs.of_connections rfl
    have hstep := (step_cases hs (clocks i) line).resolve_left fun h => hgathers line rfl h.1 h.2.1
    have hstep' := (step_cases hs' (clocks' j) line).resolve_left fun h => hne h.1
    rcases hstep.2 with ⟨hgoes, hstep⟩ | ⟨hends, hstep⟩
    · -- both gather the line
      obtain ⟨-, hstep'⟩ := hstep'.2.resolve_right fun h => hgoes h.1
      have hgathered : s.pending ++ line ≠ "" := fun h => hline (String.append_eq_empty_iff.1 h).2
      have hgathered' : p' ++ line ≠ "" := fun h => hline (String.append_eq_empty_iff.1 h).2
      rw [reactions_cons hstep, reactions_cons hstep']
      rcases ih (s := { s with pending := s.pending ++ line }) (hs.of_connections rfl)
        (htwins.append line) hgathered' hrest (fun _ _ h => absurd h hgathered) hclocks.tail with
        hsame | ⟨f, f', hR, hreworded⟩
      · exact .inl (congrArg _ hsame)
      · exact .inr ⟨f, f', hR, hreworded.cons _⟩
    · -- both send what they gathered
      obtain ⟨-, hstep'⟩ := hstep'.2.resolve_left fun h => h.1 hends
      rw [reactions_cons hstep, reactions_cons hstep', hclocks.head]
      dsimp only
      rcases htwins line with hsame | ⟨f, f', hf, hf', hR⟩
      · left
        rw [execute_congr _ hsame, reactions_congr rest _ hclocks.tail]
      · right
        obtain ⟨hservice, hshown⟩ := execute_of_refused (s := s.service) (clocks i) hf
        obtain ⟨hservice', hshown'⟩ := execute_of_refused (s := s.service) (clocks i) hf'
        rw [hservice, hshown, hservice', hshown', reactions_congr rest _ hclocks.tail]
        exact ⟨f, f', hR, [], _, rfl, rfl⟩

/-- Where what is gathered is refused whatever comes after it, it is gathered up to the next line
that ends in a semicolon, if there is one, and then refused. -/
theorem reactions_refused (lines : List String) :
    ∀ {i : Nat} {s : Shell}, s.Ready → s.pending ≠ "" →
      (∀ line ∈ lines.head?, ∀ text, ∃ f, Statement.parse (s.pending ++ line ++ text) = .error f) →
      Swallowed clocks i lines s.service (reactions clocks i lines s) := by
  induction lines with
  | nil => intro i s _ _ _; exact .inl rfl
  | cons line rest ih =>
    intro i s hs hne hrefused
    have hrefused := hrefused line rfl
    rcases ((step_cases hs (clocks i) line).resolve_left fun h => hne h.1).2 with
      ⟨hgoes, hstep⟩ | ⟨hends, hstep⟩
    · have hgathered : s.pending ++ line ≠ "" := fun h => hne (String.append_eq_empty_iff.1 h).1
      have hlater : ∀ next ∈ rest.head?, ∀ text,
          ∃ f, Statement.parse (s.pending ++ line ++ next ++ text) = .error f := by
        intro next _ text
        rw [String.append_assoc]
        exact hrefused (next ++ text)
      rw [reactions_cons hstep]
      rcases ih (i := i + 1) (s := { s with pending := s.pending ++ line }) (hs.of_connections rfl)
        hgathered hlater with hsilent | ⟨gathered, last, others, f, rfl, hgo, hlast, hrest⟩
      · exact .inl (congrArg _ hsilent)
      · refine .inr ⟨line :: gathered, last, others, f, rfl, List.forall_mem_cons.2 ⟨hgoes, hgo⟩,
          hlast, ?_⟩
        rw [hrest, List.map_cons, List.cons_append, List.length_cons, Nat.add_assoc i 1,
          Nat.add_comm 1]
    · obtain ⟨f, hf⟩ := hrefused ""
      rw [String.append_empty] at hf
      obtain ⟨hservice, hshown⟩ := execute_of_refused (s := s.service) (clocks i) hf
      refine .inr ⟨[], line, rest, f, rfl, List.forall_mem_nil _, hends, ?_⟩
      rw [reactions_cons hstep, hservice, hshown]
      rfl

/-! ### Where no statement is pending -/

/-- Blank lines and commands begin no statement. -/
theorem Unbegun.step {s next : Shell} (hs : s.Ready) (h : s.Unbegun) {clock : Calendar.Clock}
    {line : String} {shown : Output} (hline : IsBlank line ∨ IsCommand line)
    (hstep : s.step clock line = (some next, shown)) : next.Unbegun := by
  rcases step_next hs hstep with rfl | rfl | rfl
  · exact h
  · unfold Unbegun
    dsimp only
    rcases h with hblank | hpoint
    · rcases hline with hline | hline
      · left
        unfold IsBlank
        rw [String.toList_append]
        exact List.forall_mem_append.2 ⟨hblank, hline⟩
      · right
        rw [trimStart_append_of_isBlank hblank]
        exact hline.trimStart
    · exact .inr (trimStart_append_of_point hpoint line)
  · exact .inl (by simp [IsBlank])

theorem Unbegun.after? (idle : List String) : ∀ {i : Nat} {s next : Shell}, s.Ready → s.Unbegun →
    (∀ line ∈ idle, IsBlank line ∨ IsCommand line) → Shell.after? clocks i idle s = some next →
    next.Unbegun := by
  induction idle with
  | nil =>
    intro i s next _ h _ hafter
    exact Option.some.inj hafter ▸ h
  | cons line rest ih =>
    intro i s next hs h hidle hafter
    obtain ⟨hline, hrest⟩ := List.forall_mem_cons.1 hidle
    obtain ⟨middle, shown, hstep, hafter⟩ := after?_cons hafter
    exact ih (hs.step hstep) (h.step hs hline hstep) hrest hafter

/-- Where no statement is pending none was begun. -/
theorem Idle.unbegun {started s : Shell} {front : List String} (hstarted : started.Ready)
    (h : Idle clocks started front) (hafter : Shell.after? clocks 0 front started = some s) :
    s.Unbegun := by
  obtain ⟨before, idle, middle, rfl, hbefore, hpending, hidle⟩ := h
  rw [after?_append, hbefore, Option.bind_some] at hafter
  refine Unbegun.after? idle (hstarted.after? before hbefore) (.inl ?_) hidle hafter
  rw [hpending]
  simp [IsBlank]

/-- Blanks after a text in which no statement was begun make no difference to what comes after them,
but where the character stands that a text is stuck at. -/
theorem Unbegun.twins {s : Shell} (h : s.Unbegun) {blank : String} (hblank : IsBlank blank) :
    Twins (fun f f' => IsBlank s.pending → f' = f.moved blank.length) s.pending
      (s.pending ++ blank) := by
  intro text
  rcases h with hpending | hpoint
  · have hread : Statement.parse (s.pending ++ text) =
        Statement.parseFrom (0 + s.pending.toList.length) text.toList := by
      rw [← Statement.parseFrom_blanks hpending, ← String.toList_append]
      rfl
    have hread' : Statement.parse (s.pending ++ blank ++ text) =
        (Statement.parse (s.pending ++ text)).mapError (Fault.moved blank.length) := by
      rw [hread, ← Statement.parseFrom_later, ← String.length_toList (s := blank),
        ← Statement.parseFrom_blanks hblank, ← Statement.parseFrom_blanks hpending,
        ← String.toList_append, ← String.toList_append, String.append_assoc]
      rfl
    rw [hread']
    cases Statement.parse (s.pending ++ text) with
    | ok statements => exact .inl rfl
    | error f => exact .inr ⟨f, f.moved blank.length, rfl, rfl, fun _ => rfl⟩
  · obtain ⟨f, hf⟩ := Statement.parse_point (trimStart_append_of_point hpoint text)
    obtain ⟨f', hf'⟩ := Statement.parse_point (trimStart_append_of_point hpoint (blank ++ text))
    rw [← String.append_assoc] at hf'
    refine .inr ⟨f, f', hf, hf', fun hpending => ?_⟩
    rw [Text.trimStart, List.dropWhile_eq_nil_iff.2 hpending] at hpoint
    cases hpoint

/-! ### A blank line -/

/-- A blank line is gathered. -/
theorem step_blank {s : Shell} (hs : s.Ready) {line : String} (hline : IsBlank line)
    (clock : Calendar.Clock) :
    s.step clock line = (some { s with pending := s.pending ++ line }, {}) := by
  have hcommand : ¬IsCommand line := by
    rw [IsCommand, trim_of_isBlank hline]
    simp
  have hends : ¬EndsBatch line := by
    rw [EndsBatch, trim_of_isBlank hline]
    simp
  have hgathers := (step_cases hs clock line).resolve_left fun h => hcommand h.2.1
  exact (hgathers.2.resolve_right fun h => hends h.1).2

theorem sameClocks_before (clocks : Nat → Calendar.Clock) (n : Nat) (clock : Calendar.Clock) :
    SameClocks clocks (insertClock clocks n clock) 0 0 n := by
  intro k hk
  rw [insertClock, if_pos (by omega)]

theorem sameClocks_behind (clocks : Nat → Calendar.Clock) (n : Nat) (clock : Calendar.Clock)
    (length : Nat) : SameClocks clocks (insertClock clocks n clock) n (n + 1) length := by
  intro k _
  rw [insertClock, if_neg (by omega), if_neg (by omega)]
  exact congrArg clocks (by omega)

theorem isBlank_lineFeed : IsBlank "\n" := by
  intro c hc
  rw [show "\n".toList = ['\n'] from rfl, List.mem_singleton] at hc
  rw [hc]
  rfl

/-- A command comes to what it is. -/
theorem reactions_command {s : Shell} (hs : s.Ready) (hpending : s.pending = "") {line : String}
    (hline : IsCommand line) (i : Nat) (rest : List String) :
    (reactions clocks i (line :: rest) s).head? = some (s.carriedOut line) := by
  obtain ⟨-, -, hstep⟩ := (step_cases hs (clocks i) line).resolve_right fun h =>
    h.1 hpending hline
  have hservice : (s.carriedOut line).1 = none ∨ (s.carriedOut line).1 = some s.service := by
    unfold carriedOut
    dsimp only
    split
    · exact .inl rfl
    · exact .inr rfl
  generalize s.carriedOut line = carried at hstep hservice ⊢
  obtain ⟨service, shown⟩ := carried
  rcases hservice with hnone | hsome
  · obtain rfl : service = none := hnone
    rw [reactions_leave hstep]
    rfl
  · obtain rfl : service = some s.service := hsome
    rw [reactions_cons hstep]
    rfl

end

end Shell

/-! ## Top theorem -/

/-- A blank line where no statement is pending, be it at the beginning, after a batch or after other
blank lines and commands.  If the next line is no command to the shell, everything that the shell
executes and shows afterwards is as without the blank line, but perhaps for the wording of one
batch that is refused either way; where only blanks were gathered, its wording differs at most in
the place of the character that is no token.  But a command right after the blank line, which would
have been carried out, is gathered instead, and refused with all lines up to the next that ends in a
semicolon. -/
theorem Shell.blank_line_inserted {config : Config} {started s : Shell}
    (hstarted : Shell.start config = .ok started) {clocks : Nat → Calendar.Clock} {text : List Char}
    {front rest : List String} (htext : lines text = front ++ rest)
    (hafter : after? clocks 0 front started = some s) (hidle : Idle clocks started front)
    {blank : String} (hblank : IsBlank blank) (hne : blank ≠ "") (clock : Calendar.Clock) :
    ∃ shown later later', shown.length = front.length ∧
      reactions clocks 0 (front ++ rest) started = shown ++ later ∧
      reactions (insertClock clocks front.length clock) 0 (front ++ blank :: rest) started =
        shown ++ (some s.service, {}) :: later' ∧
      ((∀ line ∈ rest.head?, s.pending = "" → ¬IsCommand line) → later' = later ∨
        ∃ f f', Reworded s.service f f' later later' ∧
          (IsBlank s.pending → f' = f.moved blank.length)) ∧
      ∀ (line : String) (others : List String), rest = line :: others → s.pending = "" →
        IsCommand line → later.head? = some (s.carriedOut line) ∧
          Swallowed (insertClock clocks front.length clock) (front.length + 1) rest s.service
            later' := by
  have hready := start_ready hstarted
  have hs : s.Ready := hready.after? front hafter
  have hunbegun : s.Unbegun := hidle.unbegun hready hafter
  have hrest : ∀ line ∈ rest, line ≠ "" := by
    intro line hline
    have hmem : line ∈ lines text := htext ▸ List.mem_append_right _ hline
    exact ne_empty_of_mem_lines line hmem
  obtain ⟨hlen, hwithout⟩ := reactions_append rest front hafter fun _ _ => rfl
  obtain ⟨-, hwith⟩ := reactions_append (blank :: rest) front hafter
    (sameClocks_before clocks front.length clock)
  rw [reactions_cons (step_blank hs hblank _)] at hwith
  rw [Nat.zero_add] at hwithout hwith
  refine ⟨_, _, _, hlen, hwithout, hwith, fun hgathers => ?_, ?_⟩
  · have hgathered : s.pending ++ blank ≠ "" := fun h => hne (String.append_eq_empty_iff.1 h).2
    rcases reactions_twins rest hs (hunbegun.twins hblank) hgathered hrest hgathers
      (sameClocks_behind clocks front.length clock rest.length) with hsame | ⟨f, f', hR, hreworded⟩
    · exact .inl hsame
    · exact .inr ⟨f, f', hreworded, hR⟩
  · rintro line others rfl hpending hline
    refine ⟨reactions_command hs hpending hline _ _, ?_⟩
    have hgathered : IsBlank (s.pending ++ blank) := by
      rw [hpending, String.empty_append]
      exact hblank
    refine reactions_refused (s := { s with pending := s.pending ++ blank }) _
      (hs.of_connections rfl) (fun h => hne (String.append_eq_empty_iff.1 h).2) ?_
    intro line' hline' others
    obtain rfl := Option.some.inj hline'
    refine Statement.parse_point (trimStart_append_of_point ?_ others)
    rw [trimStart_append_of_isBlank hgathered]
    exact hline.trimStart

/-- After a blank line `.tables` shows no table: it is gathered, and comes to nothing. -/
theorem Shell.blank_line_inserted_of_tables :
    let clocks : Nat → Calendar.Clock := fun _ _ _ => ""
    let front := ["CREATE TABLE t (a INT);\n"]
    ∃ started s shown later, Shell.start {} = .ok started ∧
      after? clocks 0 front started = some s ∧
      reactions clocks 0 (front ++ [".tables\n"]) started = shown ++ later ∧
      later.head? = some (some s.service, { out := "t\n" }) ∧
      reactions (insertClock clocks 1 fun _ _ => "") 0 (front ++ ["\n", ".tables\n"]) started =
        shown ++ [(some s.service, ({} : Output)), (some s.service, ({} : Output))] := by
  intro clocks front
  let started : Shell := { service :=
    { config := {}, listening := true, connections := [("shell", { capacity := 64 })] } }
  let s : Shell := { service := (started.service.execute (clocks 0) "CREATE TABLE t (a INT);\n").1 }
  have hstarted : Shell.start {} = .ok started := by decide +kernel
  have hafter : after? clocks 0 front started = some s := by decide +kernel
  have hidle : Idle clocks started front :=
    ⟨front, [], s, rfl, hafter, rfl, fun _ hline => by cases hline⟩
  have htext : lines "CREATE TABLE t (a INT);\n.tables\n".toList = front ++ [".tables\n"] := by
    decide +kernel
  obtain ⟨shown, later, later', -, hwithout, hwith, -, hcommand⟩ := blank_line_inserted hstarted
    htext hafter hidle isBlank_lineFeed (by decide) fun _ _ => ""
  have hline : IsCommand ".tables\n" := by
    unfold IsCommand
    decide +kernel
  obtain ⟨hhead, hswallowed⟩ := hcommand ".tables\n" [] rfl rfl hline
  have hcarried : s.carriedOut ".tables\n" = (some s.service, { out := "t\n" }) := by
    decide +kernel
  rcases hswallowed with hsilent | ⟨gathered, last, others, f, hlines, -, hends, -⟩
  · rw [hsilent] at hwith
    rw [hcarried] at hhead
    exact ⟨started, s, shown, later, hstarted, hafter, hwithout, hhead, hwith⟩
  · -- the line does not end in a semicolon
    have hlast : last ∈ [".tables\n"] := by
      rw [hlines]
      exact List.mem_append_right _ List.mem_cons_self
    rw [List.mem_singleton.1 hlast] at hends
    exact absurd hends (by unfold EndsBatch; decide +kernel)

/-- A blank line before `.help` changes what the shell shows. -/
theorem Shell.blank_line_not_ignored :
    ¬∀ (config : Config) (started s : Shell) (clocks : Nat → Calendar.Clock) (text : List Char)
      (front rest : List String) (blank : String) (clock : Calendar.Clock),
      Shell.start config = .ok started → lines text = front ++ rest →
      after? clocks 0 front started = some s → Idle clocks started front → IsBlank blank →
      blank ≠ "" →
      ∃ shown later, shown.length = front.length ∧
        reactions clocks 0 (front ++ rest) started = shown ++ later ∧
        reactions (insertClock clocks front.length clock) 0 (front ++ blank :: rest) started =
          shown ++ (some s.service, {}) :: later := by
  intro hignored
  let started : Shell := { service :=
    { config := {}, listening := true, connections := [("shell", { capacity := 64 })] } }
  obtain ⟨shown, later, hlen, hwithout, hwith⟩ := hignored {} started started (fun _ _ _ => "")
    ".help\n".toList [] [".help\n"] "\n" (fun _ _ => "") (by decide +kernel) (by decide +kernel) rfl
    ⟨[], [], started, rfl, rfl, rfl, fun _ hline => by cases hline⟩ isBlank_lineFeed (by decide)
  obtain rfl := List.length_eq_zero_iff.1 hlen
  obtain rfl : later = [(some started.service, { out := help })] := by
    rw [← List.nil_append later, ← hwithout]
    decide +kernel
  exact absurd hwith (by decide +kernel)

end Tabula
