import Tabula.Execution
import Tabula.Proofs.Carrying
import Tabula.Proofs.Reach
import Tabula.Proofs.Tiling

/-!
# Batches one after the other

Two texts with a line break and a semicolon between them are the batch of both: the line break ends
a comment at the end of the first, and the semicolon ends its last statement.

* `Token.scanFrom_newline`, `Statement.parse_toOption`: the statements of both texts are read.
* `Statement.executeAll_append`, `Collector.collect_append`: they are executed one after the other,
  and their replies come one after the other.
* `Statement.parse_concatenated`: what both texts are read as, and what becomes of them.
-/

namespace Tabula

/-! ## Algorithm -/

/-- Two texts with a line break and a semicolon between them. -/
def concatenated (s₁ s₂ : String) : String :=
  s₁ ++ "\n;" ++ s₂

/-- What comes of going on after an outcome, unless a fault ended it. -/
def Outcome.andThen (o : Outcome) (next : Catalog → Outcome) : Outcome :=
  match o.fault with
  | some _ => o
  | none =>
    let others := next o.catalog
    { others with frames := o.frames ++ others.frames }

/-- The replies that an outcome makes up, the last of them its fault. -/
def Outcome.replies (o : Outcome) : List Reply :=
  Collector.collect (o.frames ++ o.fault.toList.map fun f => .fault f.message)

/-- Frames that leave no rows without an end. -/
def Frame.Settled (frames : List Frame) : Prop :=
  (frames.foldl Collector.take {}).pending = none

/-- A batch that is another one and a second one after it, unless a fault ended the first. -/
structure Outcome.Follows (whole first second : Outcome) : Prop where
  broken : first.fault ≠ none → whole = first
  catalog : first.fault = none → whole.catalog = second.catalog
  fault : first.fault = none → whole.fault = second.fault
  replies : first.fault = none → whole.replies = first.replies ++ second.replies

/-- The fault of a text that begins so many characters later. -/
def Fault.moved (n : Nat) : Fault → Fault
  | .unlexable position remainder => .unlexable (position + n) remainder
  | f => f

/-! ## Lemmas -/

/-! ### The tokens of both texts -/

namespace Token

/-- A text has the same tokens wherever it begins, or is stuck at the same character. -/
theorem scanFrom_later (position n : Nat) (cs : List Char) :
    scanFrom (position + n) cs =
      ((scanFrom position cs).map (List.map (Token.moved (· + n)))).mapError (Fault.moved n) := by
  fun_induction scanFrom position cs with
  | case1 position => rw [scanFrom]; rfl
  | case2 position c rest hfirst =>
    rw [scanFrom, hfirst]
    rfl
  | case3 position c rest l hfirst ih =>
    rw [scanFrom_of_first? hfirst, Nat.add_right_comm, ih]
    cases scanFrom (position + l.width) ((c :: rest).drop l.width) <;> rfl

/-- A text has the same tokens wherever it begins. -/
theorem scanFrom_moved (position n : Nat) (cs : List Char) :
    (scanFrom (position + n) cs).toOption =
      (scanFrom position cs).toOption.map (List.map (Token.moved (· + n))) := by
  rw [scanFrom_later]
  cases scanFrom position cs <;> rfl

/-- A semicolon at the beginning of a text is its first token. -/
theorem scanFrom_semicolon (position : Nat) (b : List Char) :
    scanFrom position (';' :: b) =
      (scanFrom (position + 1) b >>= fun others =>
        .ok (⟨.semicolon, ";", position⟩ :: others)) :=
  scanFrom_of_first? (l := ⟨.semicolon, [';'], 1, by omega⟩) rfl position

/-- Blanks up to a line break and a semicolon are one space. -/
theorem scanFrom_blanks (position : Nat) {a : List Char}
    (ha : ∀ c ∈ a, Text.isBlank c = true) (b : List Char) :
    scanFrom position (a ++ '\n' :: ';' :: b) =
      (scanFrom (position + a.length + 2) b >>= fun others =>
        .ok (⟨.space, " ", position⟩ :: ⟨.semicolon, ";", position + a.length + 1⟩ :: others)) := by
  have hall : ∀ c ∈ a ++ ['\n'], Text.isBlank c = true := by
    intro c hc
    rcases List.mem_append.1 hc with hc | hc
    · exact ha c hc
    · obtain rfl := List.mem_singleton.1 hc
      decide
  obtain ⟨c, run, hrun⟩ := List.exists_cons_of_ne_nil (show a ++ ['\n'] ≠ [] by simp)
  have hcs : a ++ '\n' :: ';' :: b = c :: (run ++ ';' :: b) := by
    rw [List.append_cons, hrun, List.cons_append]
  have hwhile : (run ++ ';' :: b).takeWhile Text.isBlank = run := by
    rw [List.takeWhile_append_of_pos fun d hd => hall d (hrun ▸ List.mem_cons_of_mem c hd),
      List.takeWhile_cons_of_neg (by decide), List.append_nil]
  have hlen : run.length = a.length := by
    have := congrArg List.length hrun
    simpa using this.symm
  have hfirst : Lexeme.first? (c :: (run ++ ';' :: b)) =
      some ⟨.space, [' '], run.length + 1, by omega⟩ := by
    have hc : Text.isBlank c = true := hall c (by rw [hrun]; exact List.mem_cons_self)
    rw [Lexeme.first?_blank hc, Lexeme.space?, if_pos hc]
    simp only [hwhile]
  rw [hcs, scanFrom_of_first? hfirst]
  dsimp only
  rw [List.drop_succ_cons, List.drop_left, scanFrom_semicolon, hlen, ← Nat.add_assoc]
  cases scanFrom (position + a.length + 1 + 1) b <;> rfl

/-- A comment up to a line break and a semicolon ends before the line break. -/
theorem scanFrom_comment (position : Nat) {line : List Char} (hline : '\n' ∉ line)
    (b : List Char) :
    scanFrom position ('-' :: '-' :: line ++ '\n' :: ';' :: b) =
      (scanFrom (position + line.length + 4) b >>= fun others =>
        .ok (⟨.space, " ", position⟩ :: ⟨.space, " ", position + line.length + 2⟩ ::
          ⟨.semicolon, ";", position + line.length + 3⟩ :: others)) := by
  have hblank := scanFrom_blanks (position + line.length + 2) (a := []) (by simp) b
  rw [List.nil_append, List.length_nil, Nat.add_zero] at hblank
  rw [scanFrom_of_first? (Lexeme.first?_comment hline (';' :: b))]
  dsimp only
  rw [List.cons_append, List.cons_append, List.drop_succ_cons, List.drop_succ_cons,
    List.drop_left, ← Nat.add_assoc, hblank]
  cases scanFrom (position + line.length + 4) b <;> rfl

theorem withoutSpaces_cons (t : Token) (tokens : List Token) :
    withoutSpaces (t :: tokens) =
      if t.kind = .space then withoutSpaces tokens else t :: withoutSpaces tokens := by
  rw [withoutSpaces, List.filter_cons]
  by_cases h : t.kind = .space <;> simp [h, withoutSpaces]

/-- The blanks at the beginning of a text make up no token but a space. -/
theorem scanFrom_dropBlanks (position : Nat) (cs : List Char) :
    withoutSpaces <$> scanFrom position cs =
      withoutSpaces <$> scanFrom (position + (cs.takeWhile Text.isBlank).length)
        (cs.dropWhile Text.isBlank) := by
  cases cs with
  | nil => rfl
  | cons c rest =>
    cases hc : Text.isBlank c with
    | false =>
      rw [List.takeWhile_cons_of_neg (by simp [hc]), List.dropWhile_cons_of_neg (by simp [hc])]
      rfl
    | true =>
      have hfirst := Lexeme.first?_blank hc rest
      rw [Lexeme.space?, if_pos hc] at hfirst
      have hdrop : rest.drop (rest.takeWhile Text.isBlank).length =
          rest.dropWhile Text.isBlank := by
        conv => lhs; arg 2; rw [← List.takeWhile_append_dropWhile (p := Text.isBlank) (l := rest)]
        exact List.drop_left
      rw [List.takeWhile_cons_of_pos hc, List.dropWhile_cons_of_pos hc,
        scanFrom_of_first? hfirst, List.drop_succ_cons, hdrop, List.length_cons]
      dsimp only
      cases scanFrom (position + ((rest.takeWhile Text.isBlank).length + 1))
        (rest.dropWhile Text.isBlank) with
      | error f => rfl
      | ok tokens => exact congrArg Except.ok ((withoutSpaces_cons ..).trans (if_pos rfl))

/-- A line break and a semicolon end the last token of a text, and what follows begins anew. -/
theorem scanFrom_newline (position : Nat) (a b : List Char) :
    ∀ {tokens : List Token}, scanFrom position a = .ok tokens →
      ∃ tokens', withoutSpaces tokens' = withoutSpaces tokens ∧
        scanFrom position (a ++ '\n' :: ';' :: b) =
          (scanFrom (position + a.length + 2) b >>= fun others =>
            .ok (tokens' ++ ⟨.semicolon, ";", position + a.length + 1⟩ :: others)) := by
  fun_induction scanFrom position a with
  | case1 position =>
    intro tokens h
    obtain rfl := Except.ok.inj h
    exact ⟨[⟨.space, " ", position⟩], rfl, scanFrom_blanks position (by simp) b⟩
  | case2 position c rest hfirst => intro tokens h; cases h
  | case3 position c rest l hfirst ih =>
    intro tokens h
    obtain ⟨later, hlater, h⟩ := bind_eq_ok.1 h
    obtain rfl := Except.ok.inj h
    have hexact := Lexeme.first?_exact hfirst
    by_cases hend : l.kind = .space ∧ l.width = (c :: rest).length
    · -- a space reaches the end: blanks go on with the line break, a comment ends before it
      obtain ⟨hkind, hwidth⟩ := hend
      have hcovers := hexact.covers
      rw [hwidth, List.take_length, hkind] at hcovers
      rw [hwidth, List.drop_length, scanFrom] at hlater
      obtain rfl := Except.ok.inj hlater
      have hnone : withoutSpaces [⟨l.kind, String.ofList l.text, position⟩] = [] := by
        rw [withoutSpaces_cons, if_pos hkind]
        rfl
      rcases hcovers.space with ⟨-, hblank⟩ | ⟨line, hline, hcs⟩
      · exact ⟨[⟨.space, " ", position⟩], hnone.symm, scanFrom_blanks position hblank b⟩
      · rw [hcs]
        refine ⟨[⟨.space, " ", position⟩, ⟨.space, " ", position + line.length + 2⟩], ?_,
          scanFrom_comment position hline b⟩
        rw [hnone]
        rfl
    · have hspace : l.kind = .space → l.width < (c :: rest).length := fun hkind =>
        Nat.lt_of_le_of_ne hexact.fits fun hwidth => hend ⟨hkind, hwidth⟩
      have hjoined := Lexeme.first?_append (d := '\n') (by decide)
        (fun h => absurd h (by decide)) hfirst hspace (';' :: b)
      obtain ⟨tokens', hsame, hscan⟩ := ih hlater
      have hdrop : (c :: rest ++ '\n' :: ';' :: b).drop l.width =
          (c :: rest).drop l.width ++ '\n' :: ';' :: b :=
        List.drop_append_of_le_length hexact.fits
      have hlen : position + l.width + ((c :: rest).drop l.width).length =
          position + (c :: rest).length := by
        rw [List.length_drop]
        have := hexact.fits
        omega
      refine ⟨⟨l.kind, String.ofList l.text, position⟩ :: tokens', ?_, ?_⟩
      · rw [withoutSpaces_cons, withoutSpaces_cons, hsame]
      · rw [scanFrom_of_first? hjoined, hdrop, hscan, hlen]
        cases scanFrom (position + (c :: rest).length + 2) b <;> rfl

end Token

/-! ### The statements of both texts -/

theorem withoutSpaces_append (tokens tokens' : List Token) :
    Token.withoutSpaces (tokens ++ tokens') =
      Token.withoutSpaces tokens ++ Token.withoutSpaces tokens' :=
  List.filter_append ..

theorem withoutSpaces_moved (f : Nat → Nat) (tokens : List Token) :
    Token.withoutSpaces (tokens.map (Token.moved f)) =
      (Token.withoutSpaces tokens).map (Token.moved f) := by
  rw [Token.withoutSpaces, Token.withoutSpaces, List.filter_map]
  rfl

/-- Where the first text is read, both are if the second is, as its statements and then those of
the second. -/
theorem Statement.parse_toOption {s₁ : String} {a : List Statement} (h : parse s₁ = .ok a)
    (s₂ : String) :
    (parse (concatenated s₁ s₂)).toOption = (parse s₂).toOption.map (a ++ ·) := by
  obtain ⟨tokens, hscan, hread⟩ := bind_eq_ok.1 h
  have hchars : (concatenated s₁ s₂).toList = s₁.toList ++ '\n' :: ';' :: s₂.toList := by
    simp [concatenated]
  obtain ⟨tokens', hsame, hjoined⟩ := Token.scanFrom_newline 0 s₁.toList s₂.toList hscan
  rw [Nat.zero_add, ← hchars] at hjoined
  have hlater := Token.scanFrom_later 0 (s₁.toList.length + 2) s₂.toList
  rw [Nat.zero_add] at hlater
  have hparse (s : String) : parse s =
      (Token.scanFrom 0 s.toList >>= fun tokens => ofTokens (Token.withoutSpaces tokens)) := rfl
  rw [hparse, hparse, hjoined, hlater]
  cases Token.scanFrom 0 s₂.toList with
  | error fault => rfl
  | ok others =>
    simp only [Except.map, Except.mapError, ok_bind]
    rw [withoutSpaces_append, hsame, Token.withoutSpaces_cons, if_neg (by simp),
      withoutSpaces_moved]
    exact ofTokens_append hread rfl _ _

/-! ### One execution after the other -/

namespace Outcome

variable {o : Outcome}

theorem andThen_of_fault (h : o.fault ≠ none) (next : Catalog → Outcome) : o.andThen next = o := by
  obtain ⟨f, hf⟩ := Option.ne_none_iff_exists'.1 h
  rw [andThen, hf]

theorem andThen_of_none (h : o.fault = none) (next : Catalog → Outcome) :
    o.andThen next =
      ⟨(next o.catalog).catalog, o.frames ++ (next o.catalog).frames, (next o.catalog).fault⟩ := by
  rw [andThen, h]

/-- Nothing follows where no statement is left. -/
theorem andThen_executeAll_nil (o : Outcome) (clock : Calendar.Clock) (i : Nat) :
    o.andThen (Statement.executeAll clock i []) = o := by
  obtain ⟨c, frames, fault⟩ := o
  cases fault with
  | some f => rfl
  | none =>
    rw [andThen_of_none rfl]
    simp [Statement.executeAll]

theorem andThen_assoc (o : Outcome) (next last : Catalog → Outcome) :
    (o.andThen next).andThen last = o.andThen fun c => (next c).andThen last := by
  by_cases h : o.fault = none
  · rw [andThen_of_none h, andThen_of_none h]
    obtain ⟨c, frames, fault⟩ := next o.catalog
    cases fault with
    | some f => rfl
    | none =>
      rw [andThen_of_none rfl, andThen_of_none rfl]
      simp only [List.append_assoc]
  · rw [andThen_of_fault h, andThen_of_fault h, andThen_of_fault h]

end Outcome

namespace Statement

theorem executeAll_cons (clock : Calendar.Clock) (i : Nat) (s : Statement) (rest : List Statement)
    (c : Catalog) : executeAll clock i (s :: rest) c =
      (s.execute (clock i) c).andThen (executeAll clock (i + 1) rest) := rfl

theorem executeAll_append (clock : Calendar.Clock) (a b : List Statement) :
    ∀ (i : Nat) (c : Catalog), executeAll clock i (a ++ b) c =
      (executeAll clock i a c).andThen (executeAll clock (i + a.length) b) := by
  induction a with
  | nil =>
    intro i c
    rfl
  | cons s rest ih =>
    intro i c
    have hlater : executeAll clock (i + 1) (rest ++ b) = fun c =>
        (executeAll clock (i + 1) rest c).andThen
          (executeAll clock (i + (s :: rest).length) b) := by
      funext c
      rw [ih, List.length_cons, Nat.add_right_comm, Nat.add_assoc i]
    rw [List.cons_append, executeAll_cons, executeAll_cons, Outcome.andThen_assoc, hlater]

/-- Statements read the times of their own places only. -/
theorem executeAll_congr {clock clock' : Calendar.Clock} (statements : List Statement) :
    ∀ {i : Nat} (c : Catalog), (∀ k < statements.length, clock (i + k) = clock' (i + k)) →
      executeAll clock i statements c = executeAll clock' i statements c := by
  induction statements with
  | nil => intro i c _; rfl
  | cons s rest ih =>
    intro i c h
    have hrest : executeAll clock (i + 1) rest = executeAll clock' (i + 1) rest := by
      funext c
      refine ih c fun k hk => ?_
      rw [Nat.add_assoc, Nat.add_comm 1]
      exact h (k + 1) (Nat.succ_lt_succ hk)
    have hfirst : clock i = clock' i := h 0 (Nat.succ_pos _)
    rw [executeAll_cons, executeAll_cons, hfirst, hrest]

/-- Statements read the times of their places in the batch. -/
theorem executeAll_later (clock : Calendar.Clock) (n : Nat) (b : List Statement) :
    ∀ (i : Nat) (c : Catalog), executeAll (fun i => clock (i + n)) i b c =
      executeAll clock (i + n) b c := by
  induction b with
  | nil => intro i c; rfl
  | cons s rest ih =>
    intro i c
    have hlater : executeAll (fun i => clock (i + n)) (i + 1) rest =
        executeAll clock (i + n + 1) rest := by
      funext c
      rw [ih, Nat.add_right_comm]
    rw [executeAll_cons, executeAll_cons, hlater]

end Statement

/-! ### One answer after the other -/

namespace Collector

/-- Replies that are complete already stay before those to come. -/
theorem foldl_take_keeps (frames : List Frame) (before : List Reply) :
    ∀ c : Collector, frames.foldl take ⟨before ++ c.complete, c.pending⟩ =
      ⟨before ++ (frames.foldl take c).complete, (frames.foldl take c).pending⟩ := by
  induction frames with
  | nil => intro c; rfl
  | cons frame rest ih =>
    intro c
    have hstep : take ⟨before ++ c.complete, c.pending⟩ frame =
        ⟨before ++ (take c frame).complete, (take c frame).pending⟩ := by
      obtain ⟨complete, pending⟩ := c
      cases frame <;> cases pending <;> simp [take, push, add, flush]
    rw [List.foldl_cons, List.foldl_cons, hstep, ih]

theorem foldl_take_of_settled {frames : List Frame} (h : Frame.Settled frames) :
    frames.foldl take {} = ⟨collect frames, none⟩ := by
  have hcollect : collect frames = (frames.foldl take {}).flush.complete := rfl
  rw [hcollect]
  rw [Frame.Settled] at h
  generalize frames.foldl take {} = last at h
  obtain ⟨complete, pending⟩ := last
  obtain rfl : pending = none := h
  rfl

/-- The replies to frames that leave nothing open come before those to the next frames. -/
theorem collect_append {frames : List Frame} (h : Frame.Settled frames) (others : List Frame) :
    collect (frames ++ others) = collect frames ++ collect others := by
  have hrest := foldl_take_keeps others (collect frames) {}
  rw [List.append_nil] at hrest
  rw [collect, List.foldl_append, foldl_take_of_settled h, hrest]
  have hothers : collect others = (others.foldl take {}).flush.complete := rfl
  rw [hothers, replies]
  generalize others.foldl take {} = last
  obtain ⟨complete, pending⟩ := last
  cases pending <;> simp [flush]

end Collector

namespace Frame

theorem Settled.nil : Settled [] := rfl

/-- A result, or the end of rows, leaves nothing open. -/
theorem Settled.concat (frames : List Frame) {last : Frame}
    (h : last = .done ∨ ∃ lastId n, last = .result lastId n) : Settled (frames ++ [last]) := by
  rw [Settled, List.foldl_append, List.foldl_cons, List.foldl_nil]
  generalize frames.foldl Collector.take {} = c
  obtain ⟨complete, pending⟩ := c
  rcases h with rfl | ⟨lastId, n, rfl⟩ <;> cases pending <;> rfl

theorem Settled.append {frames others : List Frame} (h : Settled frames) (h' : Settled others) :
    Settled (frames ++ others) := by
  have hrest := Collector.foldl_take_keeps others (Collector.collect frames) {}
  rw [List.append_nil] at hrest
  rw [Settled, List.foldl_append, Collector.foldl_take_of_settled h, hrest]
  exact h'

end Frame

/-! ### A statement that succeeds leaves nothing open -/

/-- A frame that every stage lets pass comes through all of them. -/
theorem Stage.passThrough_of_pass {frame : Frame}
    (h : ∀ stage, pass stage frame = (stage, some frame)) :
    ∀ stages, passThrough stages frame = (stages, some frame) := by
  intro stages
  induction stages with
  | nil => rfl
  | cons stage rest ih =>
    rw [passThrough, h]
    dsimp only
    rw [ih]

/-- The end of rows comes through all stages. -/
theorem Stage.passAll_done (frames : List Frame) :
    ∀ stages, ∃ before, passAll stages (frames ++ [.done]) = before ++ [.done] := by
  have hend : ∀ stages, passThrough stages .done = (stages, some .done) :=
    passThrough_of_pass fun stage => by cases stage <;> rfl
  induction frames with
  | nil =>
    intro stages
    refine ⟨[], ?_⟩
    rw [List.nil_append, passAll, hend]
    rfl
  | cons frame rest ih =>
    intro stages
    rw [List.cons_append, passAll]
    obtain ⟨stages', out⟩ := passThrough stages frame
    obtain ⟨before, hbefore⟩ := ih stages'
    refine ⟨out.toList ++ before, ?_⟩
    dsimp only
    rw [hbefore, List.append_assoc]

/-- An action answers with the frames that it reaches, or with a fault alone. -/
theorem Outcome.ofAction_frames (a : Action Catalog (List Frame)) (c : Catalog) :
    ((ofAction a c).frames = [] ∧ (ofAction a c).fault ≠ none) ∨
      ∃ next, a.reach c = .ok (next, (ofAction a c).frames) := by
  unfold ofAction
  cases hrun : a.run c with
  | error f next => exact .inl ⟨rfl, Option.some_ne_none f⟩
  | ok frames next => exact .inr ⟨next, Action.run_eq_ok.1 hrun⟩

/-- An action that reaches one result answers with it, or with a fault alone. -/
theorem Outcome.ofAction_answer {c : Catalog} {a : Action Catalog (List Frame)}
    (h : ∀ {next frames}, a.reach c = .ok (next, frames) → ∃ n, frames = [.result 0 n]) :
    ((ofAction a c).frames = [] ∧ (ofAction a c).fault ≠ none) ∨
      ∃ n, (ofAction a c).frames = [.result 0 n] :=
  (ofAction_frames a c).imp_right fun ⟨_, hreach⟩ => h hreach

theorem Catalog.truncate_result {c next : Catalog} {table : String} {frames : List Frame}
    (h : (Catalog.truncate table).reach c = .ok (next, frames)) : ∃ n, frames = [.result 0 n] := by
  simp only [truncate_reach, bind_eq_ok, pure_eq_ok, Prod.mk.injEq] at h
  obtain ⟨r, -, -, rfl⟩ := h
  exact ⟨_, rfl⟩

/-- The end of rows is the last frame of an answer that no fault ended. -/
theorem Answer.frames_done {a : Answer} {records : List Record} {ended : Option Fault}
    (h : (a.frames records ended).2 = none) :
    ∃ before, (a.frames records ended).1 = before ++ [.done] := by
  cases a with
  | cells l =>
    simp only [frames] at h ⊢
    rw [h]
    exact ⟨_, rfl⟩
  | count t =>
    simp only [frames] at h ⊢
    rw [h]
    exact ⟨[.header [t.header], _], rfl⟩

theorem Select.execute_settled {now : String} {s : Select} {c : Catalog}
    (h : (s.execute now c).fault = none) : Frame.Settled (s.execute now c).frames := by
  unfold execute at h ⊢
  split at h
  · cases h
  · next q hq =>
    have hfault : (q.answer.frames q.records.1 q.records.2).2 = none := h
    obtain ⟨before, hbefore⟩ := Answer.frames_done hfault
    obtain ⟨through, hthrough⟩ := Stage.passAll_done before q.stages
    show Frame.Settled (Stage.passAll q.stages (q.answer.frames q.records.1 q.records.2).1)
    rw [hbefore, hthrough]
    exact .concat through (.inl rfl)

/-- An INSERT answers for the rows that it inserted, or with a fault alone. -/
theorem Insert.execute_frames (times : Times) (s : Insert) (c : Catalog) :
    ((Outcome.ofAction (s.execute times) c).frames = [] ∧
        (Outcome.ofAction (s.execute times) c).fault ≠ none) ∨
      ∃ inserted, (Outcome.ofAction (s.execute times) c).frames = s.answer inserted := by
  refine (Outcome.ofAction_frames (s.execute times) c).imp_right fun ⟨next, hreach⟩ => ?_
  simp only [execute_reach, bind_eq_ok, pure_eq_ok, Prod.mk.injEq] at hreach
  obtain ⟨r, -, ⟨last, inserted⟩, -, -, hframes⟩ := hreach
  exact ⟨inserted, hframes.symm⟩

theorem Insert.execute_settled {times : Times} {s : Insert} {c : Catalog}
    (h : (Outcome.ofAction (s.execute times) c).fault = none) :
    Frame.Settled (Outcome.ofAction (s.execute times) c).frames := by
  obtain ⟨-, hfault⟩ | ⟨inserted, hframes⟩ := execute_frames times s c
  · exact absurd h hfault
  · rw [hframes]
    unfold answer
    split
    · exact .concat _ (.inl rfl)
    · exact .concat [] (.inr ⟨_, _, rfl⟩)

namespace Statement

/-- INSERT and SELECT apart, a statement answers with one result, or with a fault alone. -/
theorem executeUnguarded_answer (times : Times) (clause : Clause) (s : Statement) (c : Catalog) :
    (∃ i : Insert, s.executeUnguarded times clause c = .ofAction (i.execute times) c) ∨
      (∃ q : Select, s.executeUnguarded times clause c = q.execute (times 0) c) ∨
      ((s.executeUnguarded times clause c).frames = [] ∧
        (s.executeUnguarded times clause c).fault ≠ none) ∨
      ∃ n, (s.executeUnguarded times clause c).frames = [.result 0 n] := by
  unfold executeUnguarded
  split
  · refine .inr (.inr (Outcome.ofAction_answer fun {next frames} hx => ?_))
    simp only [CreateTable.execute_reach, bind_eq_ok, pure_eq_ok, Prod.mk.injEq] at hx
    obtain ⟨_, _, _, _, -, rfl⟩ := hx
    exact ⟨1, rfl⟩
  · refine .inr (.inr (Outcome.ofAction_answer fun {next frames} hx => ?_))
    simp only [CreateIndex.execute_reach, bind_eq_ok, pure_eq_ok, Prod.mk.injEq] at hx
    obtain ⟨_, _, _, _, -, rfl⟩ := hx
    exact ⟨1, rfl⟩
  · exact .inl ⟨_, rfl⟩
  · exact .inr (.inl ⟨_, rfl⟩)
  · refine .inr (.inr (Outcome.ofAction_answer fun {next frames} hx => ?_))
    simp only [Update.execute_reach, bind_eq_ok, pure_eq_ok, Prod.mk.injEq] at hx
    obtain ⟨_, _, _, _, ⟨_, n⟩, _, -, rfl⟩ := hx
    exact ⟨n, rfl⟩
  · refine .inr (.inr (Outcome.ofAction_answer fun {next frames} hx => ?_))
    rw [Delete.execute_reach] at hx
    split at hx
    · exact Catalog.truncate_result hx
    · simp only [bind_eq_ok, pure_eq_ok, Prod.mk.injEq] at hx
      obtain ⟨_, _, _, _, ⟨_, n⟩, _, -, rfl⟩ := hx
      exact ⟨n, rfl⟩
  · exact .inr (.inr (Outcome.ofAction_answer Catalog.truncate_result))
  · refine .inr (.inr (Outcome.ofAction_answer fun {next frames} hx => ?_))
    simp only [Catalog.dropTable_reach, bind_eq_ok, pure_eq_ok, Prod.mk.injEq] at hx
    obtain ⟨_, _, -, rfl⟩ := hx
    exact ⟨1, rfl⟩
  · exact .inr (.inr (.inr ⟨0, rfl⟩))
  · exact .inr (.inr (.inl ⟨rfl, Option.some_ne_none _⟩))

theorem executeUnguarded_settled {times : Times} {clause : Clause} {s : Statement} {c : Catalog}
    (h : (s.executeUnguarded times clause c).fault = none) :
    Frame.Settled (s.executeUnguarded times clause c).frames := by
  rcases executeUnguarded_answer times clause s c with ⟨i, hi⟩ | ⟨q, hq⟩ | ⟨-, hfault⟩ | ⟨n, hn⟩
  · rw [hi] at h ⊢
    exact Insert.execute_settled h
  · rw [hq] at h ⊢
    exact Select.execute_settled h
  · exact absurd h hfault
  · rw [hn]
    exact .concat [] (.inr ⟨0, n, rfl⟩)

theorem execute_settled {times : Times} {s : Statement} {c : Catalog}
    (h : (s.execute times c).fault = none) : Frame.Settled (s.execute times c).frames := by
  rw [execute_eq] at h ⊢
  dsimp only at h ⊢
  by_cases hexcused : (s.isGuarded &&
      (s.executeUnguarded times s.unguardedClause c).fault.any s.isExcused) = true
  · rw [if_pos hexcused]
    exact .concat _ (.inr ⟨0, 0, rfl⟩)
  · rw [if_neg hexcused] at h ⊢
    exact executeUnguarded_settled h

/-- A batch that no fault ended leaves nothing open. -/
theorem executeAll_settled (clock : Calendar.Clock) (statements : List Statement) :
    ∀ (i : Nat) (c : Catalog), (executeAll clock i statements c).fault = none →
      Frame.Settled (executeAll clock i statements c).frames := by
  induction statements with
  | nil => intro i c _; exact .nil
  | cons s rest ih =>
    intro i c h
    rw [executeAll_cons] at h ⊢
    by_cases hfirst : (s.execute (clock i) c).fault = none
    · rw [Outcome.andThen_of_none hfirst] at h ⊢
      exact (execute_settled hfirst).append (ih (i + 1) _ h)
    · rw [Outcome.andThen_of_fault hfirst] at h
      exact absurd h hfirst

end Statement

namespace Outcome

/-- The replies to a batch that no fault ended come before those to what follows. -/
theorem replies_append {frames others : List Frame} {c d : Catalog} {fault : Option Fault}
    (h : Frame.Settled frames) :
    replies ⟨c, frames ++ others, fault⟩ =
      replies ⟨d, frames, none⟩ ++ replies ⟨c, others, fault⟩ := by
  simp only [replies, Option.toList_none, List.map_nil, List.append_nil, List.append_assoc]
  exact Collector.collect_append h _

/-- Statements executed after others follow them. -/
theorem executeAll_follows (clock : Calendar.Clock) (a b : List Statement) (c : Catalog) :
    Follows (Statement.executeAll clock 0 (a ++ b) c) (Statement.executeAll clock 0 a c)
      (Statement.executeAll (fun i => clock (i + a.length)) 0 b
        (Statement.executeAll clock 0 a c).catalog) := by
  rw [Statement.executeAll_append, Statement.executeAll_later]
  have hsettled := Statement.executeAll_settled clock a 0 c
  generalize Statement.executeAll clock 0 a c = first at hsettled ⊢
  exact {
    broken := fun h => andThen_of_fault h _
    catalog := fun h => by rw [andThen_of_none h]
    fault := fun h => by rw [andThen_of_none h]
    replies := fun h => by
      obtain ⟨d, frames, fault⟩ := first
      obtain rfl : fault = none := h
      rw [andThen_of_none rfl]
      exact replies_append (hsettled rfl) }

end Outcome

theorem Catalog.runBatch_ok {text : String} {statements : List Statement}
    (h : Statement.parse text = .ok statements) (clock : Calendar.Clock) (c : Catalog) :
    c.runBatch clock text = Statement.executeAll clock 0 statements c := by
  rw [runBatch, h]

theorem Catalog.runBatch_error {text : String} {f : Fault} (h : Statement.parse text = .error f)
    (clock : Calendar.Clock) (c : Catalog) : c.runBatch clock text = ⟨c, [], some f⟩ := by
  rw [runBatch, h]

/-! ## Main result -/

/-- A text that is read, a line break, a semicolon and a second text are the batch of both.  If the
second text is read as well, the statements of both are read, and what becomes of them is what
becomes of the second text after the first.  If it is not, nothing of the first is executed. -/
theorem Statement.parse_concatenated {s₁ s₂ : String} {a : List Statement} (h : parse s₁ = .ok a) :
    (∀ b, parse s₂ = .ok b →
      parse (concatenated s₁ s₂) = .ok (a ++ b) ∧
      ∀ clock c, Outcome.Follows (Catalog.runBatch clock (concatenated s₁ s₂) c)
        (Catalog.runBatch clock s₁ c)
        (Catalog.runBatch (fun i => clock (i + a.length)) s₂
          (Catalog.runBatch clock s₁ c).catalog)) ∧
    (∀ f, parse s₂ = .error f → ∃ f', parse (concatenated s₁ s₂) = .error f' ∧
      ∀ clock c, Catalog.runBatch clock (concatenated s₁ s₂) c = ⟨c, [], some f'⟩) := by
  have hboth := parse_toOption h s₂
  constructor
  · intro b hb
    have hjoined : parse (concatenated s₁ s₂) = .ok (a ++ b) := by
      rw [hb] at hboth
      cases hparse : parse (concatenated s₁ s₂) with
      | error f => rw [hparse] at hboth; cases hboth
      | ok statements =>
        rw [hparse] at hboth
        exact congrArg Except.ok (Option.some.inj hboth)
    refine ⟨hjoined, fun clock c => ?_⟩
    rw [Catalog.runBatch_ok hjoined, Catalog.runBatch_ok h, Catalog.runBatch_ok hb]
    exact Outcome.executeAll_follows clock a b c
  · intro f hf
    rw [hf] at hboth
    cases hparse : parse (concatenated s₁ s₂) with
    | ok statements => rw [hparse] at hboth; cases hboth
    | error f' => exact ⟨f', rfl, Catalog.runBatch_error hparse⟩

/-- A comment does not reach the second text, and GRANT does not pass over it; where the second
text cannot be read, the table `t` keeps its rows. -/
theorem parse_concatenated_of_comment :
    Statement.parse "TRUNCATE t; GRANT ALL -- to all" = .ok [.truncate "t", .grant] ∧
    Statement.parse (concatenated "TRUNCATE t; GRANT ALL -- to all" "DROP TABLE t") =
      .ok [.truncate "t", .grant, .dropTable "t" false] ∧
    ∃ f, Statement.parse (concatenated "TRUNCATE t; GRANT ALL -- to all" "?") = .error f ∧
      ∀ clock c, Catalog.runBatch clock (concatenated "TRUNCATE t; GRANT ALL -- to all" "?") c =
        ⟨c, [], some f⟩ := by
  have hfirst :
      Statement.parse "TRUNCATE t; GRANT ALL -- to all" = .ok [.truncate "t", .grant] := by
    decide +kernel
  have hdrop : Statement.parse "DROP TABLE t" = .ok [.dropTable "t" false] := by decide +kernel
  have hstuck : Statement.parse "?" = .error (.unlexable 0 "?") := by decide +kernel
  exact ⟨hfirst, ((Statement.parse_concatenated hfirst).1 _ hdrop).1,
    (Statement.parse_concatenated hfirst).2 _ hstuck⟩

end Tabula
