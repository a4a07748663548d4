import Tabula.Proofs.Lines
import Tabula.Proofs.Session

/-!
# The batches of a session

The shell sends what it gathered at every line that ends in a semicolon, whatever that semicolon is:
one that ends a statement, or one in a comment or in a quoted text.

* `Shell.Lined.said_or_across`: lines are lexed up to each line end and from there, or a token goes
  on there.
* `Shell.reactions_sent`: lines come to nothing up to the one that ends a batch, and that one to what
  the batch comes to.
* `Portion.inTurn_eq`: the statements of portions come to what they come to as one batch.
* `Shell.Lined.dealt`: lines that are read as a whole are dealt out in portions that end where
  statements may end, up to a line that tears a statement.
* `Portion.Whole.unique`: there is only one way to do so.
-/

namespace Tabula

/-! ## Algorithm -/

/-- Lines of which each but the last ends with a line break. -/
inductive Shell.Lined : List String → Prop where
  | nil : Lined []
  | last (line : String) : line ≠ "" → Lined [line]
  | cons {line : String} {rest : List String} :
      line.toList.getLast? = some '\n' → Lined rest → Lined (line :: rest)

/-- What lines come to that come to nothing. -/
def Shell.silence (s : Service) (lines : List String) : List (Option Service × Output) :=
  lines.map fun _ => (some s, {})

/-- All that is shown, prompts aside. -/
def Shell.shown (rs : List (Option Service × Output)) : Output :=
  rs.foldr (fun r later => r.2 ++ later) {}

/-- Lines that the shell gathers, the one with which it sends them, and the statements that they
are. -/
structure Portion where
  gathered : List String
  last : String
  statements : List Statement

namespace Portion

variable (clocks : Nat → Calendar.Clock)

def lines (p : Portion) : List String :=
  p.gathered ++ [p.last]

/-- The batch that is sent. -/
def text (p : Portion) : String :=
  String.join p.lines

/-- What the batch comes to if its first line has the number `i`. -/
def outcome (p : Portion) (i : Nat) (c : Catalog) : Outcome :=
  Statement.executeAll (clocks (i + p.gathered.length)) 0 p.statements c

/-- What portions one after the other come to up to the first fault. -/
def inTurn : Nat → List Portion → Catalog → Outcome
  | _, [], c => ⟨c, [], none⟩
  | i, p :: rest, c => (p.outcome clocks i c).andThen (inTurn (i + p.lines.length) rest)

/-- The times that statements read if they are sent in portions, by their places among all
statements. -/
def clock : Nat → List Portion → Calendar.Clock
  | i, [] => clocks i
  | i, p :: rest => fun k =>
    if k < p.statements.length then clocks (i + p.gathered.length) k
    else clock (i + p.lines.length) rest (k - p.statements.length)

/-- The service after portions, each of which is executed whatever the others came to. -/
def served : Nat → List Portion → Service → Service
  | _, [], s => s
  | i, p :: rest, s =>
    served (i + p.lines.length) rest { s with catalog := (p.outcome clocks i s.catalog).catalog }

/-- What the lines of portions come to: nothing, but for the last of each, which shows the replies
to all of it. -/
def answers : Nat → List Portion → Service → List (Option Service × Output)
  | _, [], _ => []
  | i, p :: rest, s =>
    let o := p.outcome clocks i s.catalog
    let next := { s with catalog := o.catalog }
    Shell.silence s p.gathered ++
      (some next, Shell.showReplies o.heard) :: answers (i + p.lines.length) rest next

/-- A portion as the shell sends it. -/
structure Sent (p : Portion) : Prop where
  gathered : ∀ line ∈ p.gathered, ¬Shell.EndsBatch line
  last : Shell.EndsBatch p.last
  read : Statement.parse p.text = .ok p.statements

/-- Portions that the shell sends before other lines, each up to where a statement may end. -/
def Whole (others : List String) : List Portion → Prop
  | [] => True
  | p :: rest => p.Sent ∧ (∃ before after,
      Token.Said p.text (String.join (rest.flatMap lines ++ others)) before after ∧
        Token.Parted before after) ∧ Whole others rest

/-- Lines from which no portion is taken: none of them ends a batch, or the first batch does not end
where a statement may end. -/
def Spent (others : List String) : Prop :=
  ∀ gathered last rest before after, others = gathered ++ last :: rest →
    (∀ line ∈ gathered, ¬Shell.EndsBatch line) → Shell.EndsBatch last →
    Token.Said (String.join (gathered ++ [last])) (String.join rest) before after →
    ¬Token.Parted before after

end Portion

namespace Shell

variable (clocks : Nat → Calendar.Clock)

/-- Lines that come to nothing, since none of them ends a batch. -/
def Kept (i : Nat) (others : List String) (s : Service) : Prop :=
  (∀ line ∈ others, ¬EndsBatch line) ∧
    reactions clocks i others { service := s } = silence s others

/-- Lines the first batch of which ends where no statement does.  It is executed as it stands; if it
ends in the middle of a token there is no token to be read, and it is refused. -/
def Torn (i : Nat) (others : List String) (s : Service) : Prop :=
  ∃ gathered last rest, others = gathered ++ last :: rest ∧
    (∀ line ∈ gathered, ¬EndsBatch line) ∧ EndsBatch last ∧
    let text := String.join (gathered ++ [last])
    let sent := s.execute (clocks (i + gathered.length)) text
    reactions clocks i others { service := s } = silence s gathered ++
      (some sent.1, showReplies sent.2.heard) ::
        reactions clocks (i + gathered.length + 1) rest { service := sent.1 } ∧
    ((∃ before after, Token.Said text (String.join rest) before after ∧
        ¬Token.Parted before after) ∨
      Token.Across (String.join others) text.length ∧ Token.words? text.toList = none ∧
        sent.1 = s ∧ ∃ position remainder,
          showReplies sent.2.heard = refusal (.unlexable position remainder))

/-- Lines that the shell takes in portions, with other lines left over that come to nothing or begin
with a torn statement. -/
structure Dealt (i : Nat) (all : List String) (statements : List Statement) (s : Shell)
    (portions : List Portion) (others : List String) (unsent : List Statement) : Prop where
  lines : all = portions.flatMap Portion.lines ++ others
  whole : Portion.Whole others portions
  statements : statements = portions.flatMap Portion.statements ++ unsent
  unsent : Statement.parse (String.join others) = .ok unsent
  reactions : reactions clocks i all s = Portion.answers clocks i portions s.service ++
    reactions clocks (i + (portions.flatMap Portion.lines).length) others
      { service := Portion.served clocks i portions s.service }
  left : Kept clocks (i + (portions.flatMap Portion.lines).length) others
      (Portion.served clocks i portions s.service) ∨
    Torn clocks (i + (portions.flatMap Portion.lines).length) others
      (Portion.served clocks i portions s.service)

end Shell

/-! ## Lemmas -/

/-! ### Lines -/

namespace Shell

theorem Lined.behind {front rest : List String} (h : Lined (front ++ rest)) : Lined rest := by
  induction front with
  | nil => exact h
  | cons line front ih =>
    rw [List.cons_append] at h
    generalize hlines : front ++ rest = ls at h ih
    cases h with
    | last =>
      obtain ⟨rfl, rfl⟩ := List.append_eq_nil_iff.1 hlines
      exact .nil
    | cons _ hrest => exact ih hrest

theorem Lined.ne_empty {ls : List String} (h : Lined ls) : ∀ line ∈ ls, line ≠ "" := by
  induction h with
  | nil => exact List.forall_mem_nil _
  | last line hne => exact List.forall_mem_singleton.2 hne
  | cons hline _ ih =>
    refine List.forall_mem_cons.2 ⟨?_, ih⟩
    rintro rfl
    cases hline

/-- The lines of a text end with line breaks, and make it up. -/
theorem lines_lined (text : List Char) :
    Lined (lines text) ∧ (String.join (lines text)).toList = text := by
  have hgo (text : List Char) : ∀ begun,
      Lined (lines.go begun text) ∧
        (String.join (lines.go begun text)).toList = begun.reverse ++ text := by
    induction text with
    | nil =>
      intro begun
      rw [lines.go]
      cases begun with
      | nil => exact ⟨.nil, by simp⟩
      | cons c begun => exact ⟨.last _ (by simp), by simp⟩
    | cons c rest ih =>
      intro begun
      rw [lines.go]
      split
      · next hc =>
        obtain rfl := beq_iff_eq.1 hc
        obtain ⟨hlined, hjoin⟩ := ih []
        refine ⟨.cons (by simp) hlined, ?_⟩
        rw [String.join_cons, String.toList_append, hjoin]
        simp
      · obtain ⟨hlined, hjoin⟩ := ih (c :: begun)
        exact ⟨hlined, by rw [hjoin]; simp⟩
  exact hgo text []

theorem join_concat (gathered : List String) (last : String) :
    String.join (gathered ++ [last]) = String.join gathered ++ last := by
  rw [String.join_append, String.join_cons, String.join_nil, String.append_empty]

/-- A line has a line break at its end, or is the last. -/
theorem Lined.line_end {gathered rest : List String} {last : String}
    (h : Lined (gathered ++ last :: rest)) :
    rest = [] ∨ ∃ cs, (String.join (gathered ++ [last])).toList = cs ++ ['\n'] := by
  cases h.behind with
  | last => exact .inl rfl
  | cons hline _ =>
    obtain ⟨cs, hcs⟩ := List.getLast?_eq_some_iff.1 hline
    refine .inr ⟨(String.join gathered).toList ++ cs, ?_⟩
    rw [join_concat, String.toList_append, hcs, List.append_assoc]

theorem join_line (gathered rest : List String) (last : String) :
    String.join (gathered ++ last :: rest) =
      String.join (gathered ++ [last]) ++ String.join rest := by
  rw [← String.join_append, List.append_assoc, List.singleton_append]

/-- Lines that are lexed are lexed up to each line end and from there, or a token goes on there. -/
theorem Lined.said_or_across {gathered rest : List String} {last : String}
    (h : Lined (gathered ++ last :: rest)) {tokens : List Token}
    (hscan : Token.scan (String.join (gathered ++ last :: rest)) = .ok tokens) :
    (∃ before after,
      Token.Said (String.join (gathered ++ [last])) (String.join rest) before after) ∨
    Token.words? (String.join (gathered ++ [last])).toList = none ∧
      Token.Across (String.join (gathered ++ last :: rest))
        (String.join (gathered ++ [last])).length := by
  have hwhole := Token.words?_of_scan hscan
  rw [join_line] at hwhole
  rcases h.line_end with rfl | ⟨cs, hcs⟩
  · rw [String.join_nil, String.append_empty] at hwhole
    refine .inl ⟨Token.words tokens, [], hwhole, Token.words?_nil, ?_⟩
    rw [String.join_nil, String.append_empty, List.append_nil, hwhole]
  · have hchars : (String.join (gathered ++ [last]) ++ String.join rest).toList =
        cs ++ '\n' :: (String.join rest).toList := by
      rw [String.toList_append, hcs, List.append_assoc, List.singleton_append]
    cases hsaid : Token.words? (String.join (gathered ++ [last])).toList with
    | some before =>
      rw [hcs] at hsaid
      have hline := Token.words?_newline cs (String.join rest).toList hsaid
      rw [← hchars, hwhole] at hline
      obtain ⟨after, hafter, heq⟩ := Option.map_eq_some_iff.1 hline.symm
      refine .inl ⟨before, after, by rw [hcs, hsaid], hafter, ?_⟩
      rw [hwhole, ← heq]
    | none =>
      rw [hcs] at hsaid
      have hfrom := hscan
      rw [Token.scan, join_line, hchars] at hfrom
      obtain ⟨before, t, after, rfl, hkind, hbegins, hends⟩ :=
        Token.scanFrom_across cs _ hfrom hsaid
      have hlen : (String.join (gathered ++ [last])).length = cs.length + 1 := by
        rw [← String.length_toList, hcs, List.length_append, List.length_singleton]
      rw [Nat.zero_add, ← hlen] at hbegins hends
      rw [Nat.zero_add, ← hchars, String.length_toList, ← join_line] at hends
      exact .inr ⟨rfl, before, t, after, hscan, hkind, hbegins, hends⟩

/-- A line with which a text begins that is read is no command. -/
theorem not_isCommand_of_parse {ls : List String} {statements : List Statement}
    (h : Statement.parse (String.join ls) = .ok statements) : ∀ line ∈ ls.head?, ¬IsCommand line := by
  intro line hline hcommand
  obtain ⟨rest, rfl⟩ := List.head?_eq_some_iff.1 hline
  rw [String.join_cons] at h
  obtain ⟨f, hf⟩ := Statement.parse_point (trimStart_append_of_point hcommand.trimStart _)
  rw [hf] at h
  cases h

/-- There is a first line that ends a batch, or none. -/
theorem first_endsBatch (ls : List String) : (∀ line ∈ ls, ¬EndsBatch line) ∨
    ∃ gathered last rest, ls = gathered ++ last :: rest ∧
      (∀ line ∈ gathered, ¬EndsBatch line) ∧ EndsBatch last := by
  induction ls with
  | nil => exact .inl (List.forall_mem_nil _)
  | cons line ls ih =>
    by_cases hline : EndsBatch line
    · exact .inr ⟨[], line, ls, rfl, List.forall_mem_nil _, hline⟩
    · rcases ih with hnone | ⟨gathered, last, rest, rfl, hgoes, hends⟩
      · exact .inl (List.forall_mem_cons.2 ⟨hline, hnone⟩)
      · exact .inr ⟨line :: gathered, last, rest, rfl, List.forall_mem_cons.2 ⟨hline, hgoes⟩, hends⟩

section

variable (clocks : Nat → Calendar.Clock)

/-- Lines that do not end a batch are gathered. -/
theorem reactions_gathered (gathered rest : List String) : ∀ {i : Nat} {s : Shell}, s.Ready →
    (s.pending = "" → ∀ line ∈ gathered.head?, ¬IsCommand line) →
    (∀ line ∈ gathered, line ≠ "") → (∀ line ∈ gathered, ¬EndsBatch line) →
      reactions clocks i (gathered ++ rest) s = silence s.service gathered ++
        reactions clocks (i + gathered.length) rest
          { s with pending := s.pending ++ String.join gathered } := by
  induction gathered with
  | nil =>
    intro i s _ _ _ _
    rw [String.join_nil, String.append_empty]
    rfl
  | cons line gathered ih =>
    intro i s hs hcommand hne hgoes
    obtain ⟨hline, hne⟩ := List.forall_mem_cons.1 hne
    obtain ⟨hgo, hgoes⟩ := List.forall_mem_cons.1 hgoes
    have hstep := (step_cases hs (clocks i) line).resolve_left fun h => hcommand h.1 line rfl h.2.1
    obtain ⟨-, hstep⟩ := hstep.2.resolve_right fun h => hgo h.1
    have hbegun : s.pending ++ line ≠ "" := fun h => hline (String.append_eq_empty_iff.1 h).2
    rw [List.cons_append, reactions_cons hstep,
      ih (s := { s with pending := s.pending ++ line }) (hs.of_connections rfl)
        (fun h => absurd h hbegun) hne hgoes,
      List.length_cons, Nat.add_comm gathered.length, ← Nat.add_assoc, String.join_cons,
      ← String.append_assoc]
    rfl

/-- Lines up to one that ends a batch come to nothing, and that one to what the batch comes to. -/
theorem reactions_sent (rest : List String) {gathered : List String} {last : String} {i : Nat}
    {service : Service} (hs : Ready { service := service })
    (hcommand : ∀ line ∈ (gathered ++ [last]).head?, ¬IsCommand line)
    (hne : ∀ line ∈ gathered, line ≠ "") (hgoes : ∀ line ∈ gathered, ¬EndsBatch line)
    (hends : EndsBatch last) :
    let sent := service.execute (clocks (i + gathered.length)) (String.join (gathered ++ [last]))
    reactions clocks i (gathered ++ last :: rest) { service := service } =
      silence service gathered ++
        (some sent.1, showReplies sent.2.heard) ::
          reactions clocks (i + gathered.length + 1) rest { service := sent.1 } := by
  intro sent
  have hgathered : String.join gathered = "" → gathered = [] := by
    intro hjoin
    cases gathered with
    | nil => rfl
    | cons line gathered =>
      rw [String.join_cons, String.append_eq_empty_iff] at hjoin
      exact absurd hjoin.1 (hne line List.mem_cons_self)
  have hlast : Ready { service := service, pending := String.join gathered } := hs.of_connections rfl
  have hstep := (step_cases hlast (clocks (i + gathered.length)) last).resolve_left fun h => by
    rw [hgathered h.1] at hcommand
    exact hcommand last rfl h.2.1
  obtain ⟨-, hstep⟩ := hstep.2.resolve_left fun h => h.1 hends
  have hfirst : ∀ line ∈ gathered.head?, ¬IsCommand line := by
    intro line hline
    refine hcommand line ?_
    rw [List.head?_append, Option.mem_def.1 hline]
    rfl
  rw [reactions_gathered clocks gathered _ hs (fun _ => hfirst) hne hgoes, String.empty_append,
    reactions_cons hstep, ← join_concat]

end

end Shell

/-! ### What is shown -/

namespace Shell

theorem shown_silence (s : Service) (ls : List String) (rs : List (Option Service × Output)) :
    shown (silence s ls ++ rs) = shown rs := by
  induction ls with
  | nil => rfl
  | cons line ls ih => exact (Output.empty_append _).trans ih

/-- Replies are shown one after the other. -/
theorem showReplies_append (replies others : List Reply) :
    showReplies (replies ++ others) = showReplies replies ++ showReplies others := by
  have hfrom (others : List Reply) : ∀ o : Output,
      others.foldl (fun o r => o ++ showReply r) o = o ++ showReplies others := by
    induction others with
    | nil => exact fun o => (Output.append_empty o).symm
    | cons r others ih =>
      intro o
      rw [showReplies, List.foldl_cons, List.foldl_cons, ih, ih, Output.empty_append,
        Output.append_assoc]
  rw [showReplies, List.foldl_append]
  exact hfrom others _

end Shell

/-- What is heard of an outcome that no fault ended comes before what is heard of the next. -/
theorem Outcome.heard_andThen {o : Outcome} (hfault : o.fault = none)
    (hsettled : Frame.Settled o.frames) (next : Catalog → Outcome) :
    (o.andThen next).heard = o.heard ++ (next o.catalog).heard := by
  rw [andThen_of_none hfault, heard, heard, hfault, Collector.collect_append hsettled]
  simp [heard]

/-! ### Portions in turn -/

namespace Portion

variable {clocks : Nat → Calendar.Clock}

/-- The statements of portions that are executed in turn come to what they come to as one batch, if
each reads the time that it reads in its portion. -/
theorem inTurn_eq (portions : List Portion) : ∀ (i : Nat) (c : Catalog),
    Statement.executeAll (clock clocks i portions) 0 (portions.flatMap statements) c =
      inTurn clocks i portions c := by
  induction portions with
  | nil => intro i c; rfl
  | cons p rest ih =>
    intro i c
    have hfirst : ∀ k < p.statements.length,
        clock clocks i (p :: rest) (0 + k) = clocks (i + p.gathered.length) (0 + k) := by
      intro k hk
      rw [Nat.zero_add]
      exact if_pos hk
    have hlater : (fun k => clock clocks i (p :: rest) (k + p.statements.length)) =
        clock clocks (i + p.lines.length) rest := by
      funext k
      refine (if_neg (by omega)).trans ?_
      rw [Nat.add_sub_cancel]
    have hrest : Statement.executeAll (clock clocks i (p :: rest)) (0 + p.statements.length)
        (rest.flatMap statements) = inTurn clocks (i + p.lines.length) rest := by
      funext c
      rw [← Statement.executeAll_later, hlater, ih]
    rw [List.flatMap_cons, Statement.executeAll_append, hrest, Statement.executeAll_congr _ _ hfirst]
    rfl

/-- If no fault ends one, portions leave the service with the catalog that one batch leaves. -/
theorem served_eq (portions : List Portion) : ∀ (i : Nat) (s : Service),
    (inTurn clocks i portions s.catalog).fault = none →
      served clocks i portions s =
        { s with catalog := (inTurn clocks i portions s.catalog).catalog } := by
  induction portions with
  | nil => intro i s _; rfl
  | cons p rest ih =>
    intro i s h
    rw [inTurn] at h ⊢
    by_cases hfirst : (p.outcome clocks i s.catalog).fault = none
    · rw [Outcome.andThen_of_none hfirst] at h ⊢
      exact ih _ { s with catalog := (p.outcome clocks i s.catalog).catalog } h
    · rw [Outcome.andThen_of_fault hfirst] at h
      exact absurd h hfirst

/-- If no fault ends one, portions show what one batch shows. -/
theorem answers_shown (portions : List Portion) : ∀ (i : Nat) (s : Service),
    (inTurn clocks i portions s.catalog).fault = none →
      Shell.shown (answers clocks i portions s) =
        Shell.showReplies (inTurn clocks i portions s.catalog).heard := by
  induction portions with
  | nil => intro i s _; rfl
  | cons p rest ih =>
    intro i s h
    rw [inTurn] at h ⊢
    by_cases hfirst : (p.outcome clocks i s.catalog).fault = none
    · have hsettled : Frame.Settled (p.outcome clocks i s.catalog).frames :=
        Statement.executeAll_settled _ _ _ _ hfirst
      rw [Outcome.heard_andThen hfirst hsettled, Shell.showReplies_append, answers,
        Shell.shown_silence]
      rw [Outcome.andThen_of_none hfirst] at h
      exact congrArg _ (ih _ { s with catalog := (p.outcome clocks i s.catalog).catalog } h)
    · rw [Outcome.andThen_of_fault hfirst] at h
      exact absurd h hfirst

end Portion

/-! ### Lines in portions -/

namespace Shell

/-- A text that is not lexed is refused. -/
theorem execute_of_unlexed {text : String} (h : Token.words? text.toList = none) (s : Service)
    (clock : Calendar.Clock) : (s.execute clock text).1 = s ∧ ∃ position remainder,
      showReplies (s.execute clock text).2.heard = refusal (.unlexable position remainder) := by
  cases hscan : Token.scan text with
  | ok tokens =>
    rw [Token.words?_of_scan hscan] at h
    cases h
  | error f =>
    obtain ⟨a, b, -, -, -, -, -, rfl, -⟩ := Token.scanFrom_stuck 0 text.toList hscan
    have hparse : Statement.parse text = .error (.unlexable (0 + a.length) (String.ofList b)) := by
      rw [Statement.parse, hscan]
      rfl
    obtain ⟨hservice, hshown⟩ := execute_of_refused (s := s) clock hparse
    exact ⟨hservice, _, _, hshown⟩

variable {clocks : Nat → Calendar.Clock} {i : Nat} {s : Service}

/-- A portion before lines that are dealt out. -/
theorem Dealt.cons {p : Portion} {rest others : List String} {portions : List Portion}
    {statements unsent : List Statement} (hs : Ready { service := s })
    (hcommand : ∀ line ∈ p.lines.head?, ¬IsCommand line) (hne : ∀ line ∈ p.gathered, line ≠ "")
    (hp : p.Sent) {before after : List (TokenKind × String)}
    (hsaid : Token.Said p.text (String.join rest) before after)
    (hparted : Token.Parted before after)
    (hrest : Dealt clocks (i + p.lines.length) rest statements
      { service := { s with catalog := (p.outcome clocks i s.catalog).catalog } } portions others
      unsent) :
    Dealt clocks i (p.gathered ++ p.last :: rest) (p.statements ++ statements) { service := s }
      (p :: portions) others unsent := by
  have hexecute : s.execute (clocks (i + p.gathered.length)) p.text =
      ({ s with catalog := (p.outcome clocks i s.catalog).catalog },
        p.outcome clocks i s.catalog) := by
    rw [Service.execute, Catalog.runBatch_ok hp.read]
    rfl
  have hsent := reactions_sent clocks rest (i := i) hs hcommand hne hp.gathered hp.last
  have hlines : p.lines.length = p.gathered.length + 1 := List.length_append
  have hindex : i + ((p :: portions).flatMap Portion.lines).length =
      i + p.lines.length + (portions.flatMap Portion.lines).length := by
    rw [List.flatMap_cons, List.length_append, Nat.add_assoc]
  rw [show String.join (p.gathered ++ [p.last]) = p.text from rfl, hexecute, Nat.add_assoc,
    ← hlines] at hsent
  obtain ⟨rfl, hwhole, rfl, hunsent, hreactions, hleft⟩ := hrest
  refine ⟨?_, ⟨hp, ⟨before, after, hsaid, hparted⟩, hwhole⟩, ?_, hunsent, ?_, ?_⟩
  · rw [List.flatMap_cons, List.append_assoc]
    exact List.append_cons ..
  · rw [List.flatMap_cons, List.append_assoc]
  · rw [hindex, hsent, hreactions, Portion.answers, List.append_assoc]
    rfl
  · rw [hindex]
    exact hleft

/-- Lines that are read as a whole are dealt out, up to one that tears a statement. -/
theorem Lined.dealt (clocks : Nat → Calendar.Clock) {ls : List String} (h : Lined ls)
    {statements : List Statement}
    (hs : Ready { service := s }) (hread : Statement.parse (String.join ls) = .ok statements) :
    ∃ portions others unsent,
      Dealt clocks i ls statements { service := s } portions others unsent := by
  induction hn : ls.length using Nat.strongRecOn generalizing ls i s statements with
  | ind n ih =>
    subst hn
    have hcommand := not_isCommand_of_parse hread
    rcases first_endsBatch ls with hgoes | ⟨gathered, last, rest, rfl, hgoes, hends⟩
    · -- all lines are gathered
      have hkept := reactions_gathered clocks ls [] (i := i) hs (fun _ => hcommand) h.ne_empty hgoes
      rw [List.append_nil] at hkept
      refine ⟨[], ls, statements, rfl, trivial, rfl, hread, rfl, .inl ⟨hgoes, ?_⟩⟩
      exact hkept.trans (List.append_nil _)
    · have hfirst : ∀ line ∈ (gathered ++ [last]).head?, ¬IsCommand line := by
        intro line hline
        refine hcommand line ?_
        rw [List.append_cons, List.head?_append, Option.mem_def.1 hline]
        rfl
      have hne : ∀ line ∈ gathered, line ≠ "" := fun line hline =>
        h.ne_empty line (List.mem_append_left _ hline)
      have hsent := reactions_sent clocks rest (i := i) hs hfirst hne hgoes hends
      obtain ⟨tokens, hscan, -⟩ := bind_eq_ok.1 hread
      have hcut := h.said_or_across hscan
      by_cases hparted : ∃ before after,
        Token.Said (String.join (gathered ++ [last])) (String.join rest) before after ∧
          Token.Parted before after
      · -- a statement may end with the batch, and the other lines are read from there
        obtain ⟨before, after, hsaid, hparted⟩ := hparted
        rw [join_line] at hread
        obtain ⟨x, y, hx, hy, rfl⟩ := Statement.parse_parted hsaid hparted hread
        let p : Portion := ⟨gathered, last, x⟩
        have hshorter : rest.length < (gathered ++ last :: rest).length := by
          rw [List.length_append, List.length_cons]
          omega
        have hrest : Lined rest := by
          rw [List.append_cons] at h
          exact h.behind
        obtain ⟨portions, others, unsent, hdealt⟩ := ih _ hshorter hrest (i := i + p.lines.length)
          (s := { s with catalog := (p.outcome clocks i s.catalog).catalog })
          (hs.of_connections rfl) hy rfl
        exact ⟨p :: portions, others, unsent,
          Dealt.cons (p := p) hs hfirst hne ⟨hgoes, hends, hx⟩ hsaid hparted hdealt⟩
      · refine ⟨[], gathered ++ last :: rest, statements, rfl, trivial, rfl, hread, rfl, .inr ?_⟩
        refine ⟨gathered, last, rest, rfl, hgoes, hends, hsent, ?_⟩
        rcases hcut with ⟨before, after, hsaid⟩ | ⟨hnone, hacross⟩
        · exact .inl ⟨before, after, hsaid, fun h => hparted ⟨before, after, hsaid, h⟩⟩
        · exact .inr ⟨hacross, hnone, execute_of_unlexed hnone s _⟩

/-- A shell that starts has gathered nothing. -/
theorem start_pending {config : Config} {s : Shell} (h : start config = .ok s) :
    s.pending = "" := by
  simp only [start, bind_eq_ok, pure_eq_ok] at h
  obtain ⟨_, _, _, _, rfl⟩ := h
  rfl

end Shell

/-! ### Only one way -/

/-- A text says one thing. -/
theorem Token.Said.unique {a b : String} {before after before' after' : List (TokenKind × String)}
    (h : Said a b before after) (h' : Said a b before' after') :
    before = before' ∧ after = after' :=
  ⟨Option.some.inj (h.left.symm.trans h'.left), Option.some.inj (h.right.symm.trans h'.right)⟩

/-- There is only one first line that ends a batch. -/
theorem Shell.first_endsBatch_unique {gathered gathered' rest rest' : List String}
    {last last' : String} (hgoes : ∀ line ∈ gathered, ¬EndsBatch line) (hends : EndsBatch last)
    (hgoes' : ∀ line ∈ gathered', ¬EndsBatch line) (hends' : EndsBatch last')
    (h : gathered ++ last :: rest = gathered' ++ last' :: rest') :
    gathered = gathered' ∧ last = last' ∧ rest = rest' := by
  induction gathered generalizing gathered' with
  | nil =>
    cases gathered' with
    | nil => exact ⟨rfl, List.cons.inj h⟩
    | cons line gathered' =>
      obtain rfl := (List.cons.inj h).1
      exact absurd hends (hgoes' last List.mem_cons_self)
  | cons line gathered ih =>
    cases gathered' with
    | nil =>
      obtain rfl := (List.cons.inj h).1
      exact absurd hends' (hgoes line List.mem_cons_self)
    | cons line' gathered' =>
      obtain ⟨rfl, htail⟩ := List.cons.inj h
      obtain ⟨rfl, hrest⟩ :=
        ih (List.forall_mem_cons.1 hgoes).2 (List.forall_mem_cons.1 hgoes').2 htail
      exact ⟨rfl, hrest⟩

/-- The lines that are left over when lines are dealt out are spent. -/
theorem Shell.Dealt.spent {clocks : Nat → Calendar.Clock} {i : Nat} {all others : List String}
    {statements unsent : List Statement} {s : Shell} {portions : List Portion}
    (h : Dealt clocks i all statements s portions others unsent) : Portion.Spent others := by
  intro gathered last rest before after hlines hgoes hends hsaid hparted
  rcases h.left with ⟨hnone, -⟩ | ⟨gathered', last', rest', hothers, hgoes', hends', -, htorn⟩
  · exact hnone last (hlines ▸ List.mem_append_right _ List.mem_cons_self) hends
  · obtain ⟨rfl, rfl, rfl⟩ :=
      first_endsBatch_unique hgoes hends hgoes' hends' (hlines.symm.trans hothers)
    rcases htorn with ⟨before', after', hsaid', hnot⟩ | ⟨-, hnone, -⟩
    · obtain ⟨rfl, rfl⟩ := hsaid.unique hsaid'
      exact hnot hparted
    · have hleft := hnone.symm.trans hsaid.left
      cases hleft

namespace Portion

/-- No portion comes first in lines that are spent. -/
theorem Spent.ne {others others' : List String} {p : Portion} {rest : List Portion}
    (h : Spent others) (hwhole : Whole others' (p :: rest)) :
    others ≠ (p :: rest).flatMap lines ++ others' := by
  intro hlines
  obtain ⟨hp, ⟨before, after, hsaid, hparted⟩, -⟩ := hwhole
  refine h p.gathered p.last (rest.flatMap lines ++ others') before after ?_ hp.gathered hp.last
    hsaid hparted
  rw [hlines, List.flatMap_cons, List.append_assoc, lines, List.append_assoc]
  rfl

/-- Lines are taken in portions in one way only, until what is left over is spent. -/
theorem Whole.unique {others others' : List String} (hspent : Spent others)
    (hspent' : Spent others') (portions : List Portion) :
    ∀ {portions' : List Portion}, Whole others portions → Whole others' portions' →
      portions.flatMap lines ++ others = portions'.flatMap lines ++ others' →
      portions = portions' ∧ others = others' := by
  induction portions with
  | nil =>
    intro portions' _ hwhole' h
    cases portions' with
    | nil => exact ⟨rfl, h⟩
    | cons p' rest' => exact absurd h (hspent.ne hwhole')
  | cons p rest ih =>
    intro portions' hwhole hwhole' h
    cases portions' with
    | nil => exact absurd h.symm (hspent'.ne hwhole)
    | cons p' rest' =>
      obtain ⟨hp, -, hrest⟩ := hwhole
      obtain ⟨hp', -, hrest'⟩ := hwhole'
      obtain ⟨gathered, last, statements⟩ := p
      obtain ⟨gathered', last', statements'⟩ := p'
      simp only [List.flatMap_cons, lines, List.append_assoc, List.singleton_append] at h
      obtain ⟨rfl, rfl, htail⟩ :=
        Shell.first_endsBatch_unique hp.gathered hp.last hp'.gathered hp'.last h
      obtain rfl := Except.ok.inj (hp.read.symm.trans hp'.read)
      obtain ⟨rfl, hothers⟩ := ih hrest hrest' htail
      exact ⟨rfl, hothers⟩

end Portion

/-- A line that ends a batch is a portion where one begins. -/
theorem Portion.Whole.first {others ls : List String} {portions : List Portion} {line : String}
    (h : Whole others portions) (hlines : line :: ls = portions.flatMap lines)
    (hends : Shell.EndsBatch line) :
    ∃ (p : Portion) (rest : List Portion), Statement.parse line = .ok p.statements ∧
      Whole others rest ∧ ls = rest.flatMap lines := by
  cases portions with
  | nil => cases hlines
  | cons p rest =>
    obtain ⟨hp, -, hrest⟩ := h
    rw [List.flatMap_cons, lines, List.append_assoc] at hlines
    cases hgathered : p.gathered with
    | nil =>
      rw [hgathered] at hlines
      obtain ⟨rfl, rfl⟩ := List.cons.inj hlines
      have hread := hp.read
      rw [text, lines, hgathered, List.nil_append, String.join_cons, String.join_nil,
        String.append_empty] at hread
      exact ⟨p, rest, hread, hrest, rfl⟩
    | cons g others =>
      rw [hgathered] at hlines
      obtain ⟨rfl, -⟩ := List.cons.inj hlines
      exact absurd hends (hp.gathered line (hgathered ▸ List.mem_cons_self))

/-- A text that is read is some statements. -/
theorem Statement.exists_of_parse {text : String}
    (h : (parse text).toOption.isSome = true) : ∃ statements, parse text = .ok statements := by
  cases hread : parse text with
  | error f =>
    rw [hread] at h
    cases h
  | ok statements => exact ⟨statements, rfl⟩

/-! ## Top theorem -/

/-- A text that is read as a whole is sent in portions, each of which ends where a statement may end,
up to the end of the text or to a batch that ends in the middle of a statement.  As one batch, in
which each statement reads the time that it reads in the session, the text comes to what the portions
come to in turn up to the first fault, and then to what the statements come to that are not sent with
them; where no fault ends them, the portions leave the same catalog and show the same replies. -/
theorem Shell.dealt_in_portions {config : Config} {started : Shell}
    (hstarted : Shell.start config = .ok started) {text : String} {statements : List Statement}
    (hread : Statement.parse text = .ok statements) (clocks : Nat → Calendar.Clock) :
    ∃ portions others unsent,
      Dealt clocks 0 (lines text.toList) statements started portions others unsent ∧
      let clock := Portion.clock clocks 0 portions
      let whole := Portion.inTurn clocks 0 portions started.service.catalog
      started.service.catalog.runBatch clock text = whole.andThen
        (Statement.executeAll clock (portions.flatMap Portion.statements).length unsent) ∧
      (whole.fault = none →
        Portion.served clocks 0 portions started.service =
          { started.service with catalog := whole.catalog } ∧
        shown (Portion.answers clocks 0 portions started.service) =
          showReplies whole.heard) := by
  have hready := start_ready hstarted
  have hpending := start_pending hstarted
  obtain ⟨service, pending⟩ := started
  obtain rfl : pending = "" := hpending
  obtain ⟨hlined, hjoin⟩ := lines_lined text.toList
  rw [String.toList_inj] at hjoin
  have hwhole := hread
  rw [← hjoin] at hwhole
  obtain ⟨portions, others, unsent, hdealt⟩ := hlined.dealt clocks (i := 0) hready hwhole
  refine ⟨portions, others, unsent, hdealt, ?_, fun hfault => ⟨?_, ?_⟩⟩
  · rw [Catalog.runBatch_ok hread, hdealt.statements, Statement.executeAll_append,
      Portion.inTurn_eq, Nat.zero_add]
  · exact Portion.served_eq portions 0 service hfault
  · exact Portion.answers_shown portions 0 service hfault

/-- A statement over two lines after one with a semicolon in its comment: there are two portions, and
nothing is left over. -/
theorem Shell.dealt_in_portions_of_comment :
    let clocks : Nat → Calendar.Clock := fun _ _ _ => ""
    let text := "CREATE TABLE t (a TEXT); -- one;\nINSERT INTO t (a)\nVALUES ('x; y');\n"
    let create : Statement := .createTable ⟨"t", false, [⟨"a", "TEXT", false, []⟩], []⟩
    let insert : Statement := .insert ⟨"t", ["a"], [[⟨.string, "x; y"⟩]], none⟩
    let portions : List Portion :=
      [⟨[], "CREATE TABLE t (a TEXT); -- one;\n", [create]⟩,
        ⟨["INSERT INTO t (a)\n"], "VALUES ('x; y');\n", [insert]⟩]
    ∃ started, Shell.start {} = .ok started ∧ Statement.parse text = .ok [create, insert] ∧
      Dealt clocks 0 (lines text.toList) [create, insert] started portions [] [] ∧
      started.service.catalog.runBatch (Portion.clock clocks 0 portions) text =
        Portion.inTurn clocks 0 portions started.service.catalog := by
  intro clocks text create insert portions
  let started : Shell := { service :=
    { config := {}, listening := true, connections := [("shell", { capacity := 64 })] } }
  have hstarted : Shell.start {} = .ok started := by decide +kernel
  have hread : Statement.parse text = .ok [create, insert] := by decide +kernel
  have hlines : lines text.toList = portions.flatMap Portion.lines ++ [] := by decide +kernel
  have hsent : ∀ p ∈ portions, p.Sent := by
    have hgathered : ∀ p ∈ portions, ∀ line ∈ p.gathered,
        (Text.trim line.toList).getLast? ≠ some ';' := by decide +kernel
    have hlast : ∀ p ∈ portions, (Text.trim p.last.toList).getLast? = some ';' := by
      decide +kernel
    have hreads : ∀ p ∈ portions, Statement.parse p.text = .ok p.statements := by decide +kernel
    exact fun p hp => ⟨hgathered p hp, hlast p hp, hreads p hp⟩
  let created : List (TokenKind × String) := [(.keyword .create, "CREATE"),
    (.keyword .table, "TABLE"), (.identifier, "t"), (.lparen, "("), (.identifier, "a"),
    (.identifier, "TEXT"), (.rparen, ")"), (.semicolon, ";")]
  let inserted : List (TokenKind × String) := [(.keyword .insert, "INSERT"),
    (.keyword .into, "INTO"), (.identifier, "t"), (.lparen, "("), (.identifier, "a"),
    (.rparen, ")"), (.keyword .values, "VALUES"), (.lparen, "("), (.string, "x; y"),
    (.rparen, ")"), (.semicolon, ";")]
  have hwhole : Portion.Whole [] portions := by
    refine ⟨hsent _ List.mem_cons_self, ⟨created, inserted, ⟨?_, ?_, ?_⟩, .inl ?_⟩,
      hsent _ (List.mem_cons_of_mem _ List.mem_cons_self), ⟨inserted, [], ⟨?_, ?_, ?_⟩, .inl ?_⟩,
      trivial⟩
    all_goals decide +kernel
  have hspent : Portion.Spent [] := fun gathered last rest _ _ hnone =>
    absurd hnone.symm (List.append_ne_nil_of_right_ne_nil gathered (List.cons_ne_nil last rest))
  obtain ⟨dealt, others, unsent, hdealt, hrun, -⟩ := dealt_in_portions hstarted hread clocks
  obtain ⟨rfl, rfl⟩ := Portion.Whole.unique hdealt.spent hspent dealt hdealt.whole hwhole
    (hdealt.lines.symm.trans hlines)
  obtain rfl : unsent = [] := by
    have hnothing : Statement.parse (String.join []) = .ok [] := by decide +kernel
    exact Except.ok.inj (hdealt.unsent.symm.trans hnothing)
  exact ⟨started, hstarted, hread, hdealt, hrun.trans (Outcome.andThen_executeAll_nil _ _ _)⟩

/-- The lines of a statement are not sent together if one before the last ends in a semicolon that is
quoted. -/
theorem Shell.not_dealt_whole :
    ¬∀ (config : Config) (started : Shell) (clocks : Nat → Calendar.Clock) (pieces : List String)
      (statements : List Statement),
      Shell.start config = .ok started →
      (∀ piece ∈ pieces, (∃ s, Statement.parse piece = .ok [s]) ∧ EndsBatch piece ∧
        piece.toList.getLast? = some '\n') →
      Statement.parse (String.join pieces) = .ok statements →
      (∀ line ∈ lines (String.join pieces).toList, line.toList.head? ≠ some '.') →
      ∃ portions,
        Dealt clocks 0 (lines (String.join pieces).toList) statements started portions [] [] := by
  intro hwhole
  let started : Shell := { service :=
    { config := {}, listening := true, connections := [("shell", { capacity := 64 })] } }
  let pieces : List String :=
    ["CREATE TABLE t (a TEXT);\n", "INSERT INTO t (a) VALUES ('x;\ny');\n"]
  have hpieces : ∀ piece ∈ pieces, (∃ s, Statement.parse piece = .ok [s]) ∧ EndsBatch piece ∧
      piece.toList.getLast? = some '\n' := by
    have hone : ∀ piece ∈ pieces, (Statement.parse piece).toOption.map List.length = some 1 := by
      decide +kernel
    have hends : ∀ piece ∈ pieces, (Text.trim piece.toList).getLast? = some ';' ∧
        piece.toList.getLast? = some '\n' := by decide +kernel
    intro piece hpiece
    refine ⟨?_, hends piece hpiece⟩
    have hlength := hone piece hpiece
    cases hread : Statement.parse piece with
    | error f =>
      rw [hread] at hlength
      cases hlength
    | ok statements =>
      rw [hread] at hlength
      obtain ⟨s, rfl⟩ := List.length_eq_one_iff.1 (Option.some.inj hlength)
      exact ⟨s, rfl⟩
  have hlines : lines (String.join pieces).toList =
      ["CREATE TABLE t (a TEXT);\n", "INSERT INTO t (a) VALUES ('x;\n", "y');\n"] := by
    decide +kernel
  have hends : ∀ line ∈ lines (String.join pieces).toList,
      (Text.trim line.toList).getLast? = some ';' ∧ line.toList.head? ≠ some '.' := by
    decide +kernel
  obtain ⟨statements, hread⟩ := Statement.exists_of_parse
    (show (Statement.parse (String.join pieces)).toOption.isSome = true by decide +kernel)
  have hcut : Statement.parse "INSERT INTO t (a) VALUES ('x;\n" =
      .error (.unlexable 26 "'x;\n") := by decide +kernel
  obtain ⟨portions, hdealt⟩ := hwhole {} started (fun _ _ _ => "") pieces statements
    (by decide +kernel) hpieces hread fun line hline => (hends line hline).2
  have hall := hdealt.lines
  rw [List.append_nil, hlines] at hall
  rw [hlines] at hends
  -- the first two lines are portions, of which the second is not read
  obtain ⟨-, rest, -, hrest, hlater⟩ := hdealt.whole.first hall (hends _ List.mem_cons_self).1
  obtain ⟨p, -, hp, -, -⟩ := hrest.first hlater
    (hends _ (List.mem_cons_of_mem _ List.mem_cons_self)).1
  rw [hcut] at hp
  cases hp

end Tabula
