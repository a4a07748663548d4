import Tabula.Proofs.Acceptance
import Tabula.Proofs.Suppression

/-!
# Counts and the rows that are counted

A COUNT and a SELECT of all columns look at the same records in different ways: the one asks for
one key or none, the other for every key there is.  What the COUNT of a column tells by itself,
whether a value is null, is a condition of the SELECT that it counts.  Neither asks for what is not
there, so that both end alike, and the count is the number of rows.

* `Condition.Adds`: conditions that ask for one more; `Condition.Adds.bindAll` and
  `Condition.Adds.passes` say what that changes.
* `Outcome.Counts.of_bind`: what is left to show of two queries with the same levels.
* `Catalog.Reachable.counts_agree`: COUNT(*) counts the rows of the SELECT with the same conditions,
  and the COUNT of a column those of the SELECT that also asks for the column not to be null.
-/

namespace Tabula

/-! ## Algorithm -/

/-- What rows are selected from, and which. -/
structure Body where
  tables : List String
  joins : List Join
  conditions : List Condition

/-- The SELECT of some columns with a body, and nothing else. -/
def Body.select (b : Body) (projections : List Projection) : Select :=
  ⟨none, projections, b.tables, b.joins, b.conditions, [], none, none, false⟩

/-- Conditions that ask for what others ask for and for one thing more, in any order.  The condition
that always holds stands for a WHERE that is not there. -/
def Condition.Adds (added : Condition) (conditions extended : List Condition) : Prop :=
  ∀ x, x ≠ .always → (x ∈ extended ↔ x ∈ conditions ∨ x = added)

/-- A count succeeds where a SELECT does, and its one cell is how many rows that answers with. -/
structure Outcome.Counts (c : Catalog) (header : String) (count shown : Outcome) : Prop where
  succeeds : count.fault = none ↔ shown.fault = none
  cell : shown.fault = none → ∃ columns rows, shown = .ofRows c columns rows ∧
    count = .ofRows c [header] [[toString rows.length]]

/-! ## Binding -/

/-- A SELECT of all columns and the COUNT of all rows with the same body are bound to the same but
for the answer. -/
theorem Body.bind_count_star (now : String) (c : Catalog) (b : Body) :
    (b.select [.count .star]).bind now c =
      (fun q : Query => { q with answer := .count ⟨"COUNT(*)", none⟩ }) <$>
        (b.select [.star]).bind now c := by
  have hnames : (b.select [.count .star]).tableNames = (b.select [.star]).tableNames := rfl
  unfold Select.bind
  rw [hnames]
  cases (b.select [.star]).tableNames with
  | nil => rfl
  | cons first rest =>
    simp only [map_bind, map_pure]
    rfl

/-! ## Conditions -/

namespace Predicate

variable {now : String} {s : Scope}

theorem bindAll_succeeds (conditions : List Condition) :
    (∃ ps, bindAll now s conditions = .ok ps) ↔ ∀ x ∈ conditions, ∃ p, bind now s x = .ok p := by
  induction conditions with
  | nil => simp [bindAll]
  | cons x rest ih =>
    rw [List.forall_mem_cons, ← ih]
    simp only [bindAll, bind_eq_ok, pure_eq_ok]
    constructor
    · rintro ⟨_, p, hp, ps, hps, rfl⟩
      exact ⟨⟨p, hp⟩, ps, hps⟩
    · rintro ⟨⟨p, hp⟩, ps, hps⟩
      exact ⟨_, p, hp, ps, hps, rfl⟩

/-- A record meets all predicates if it meets that of each condition. -/
theorem bindAll_passes {r : Record} (conditions : List Condition) :
    ∀ {ps : List Predicate}, bindAll now s conditions = .ok ps →
      (ps.all (passes r) = true ↔
        ∀ x ∈ conditions, ∀ p, bind now s x = .ok p → p.passes r = true) := by
  induction conditions with
  | nil =>
    intro ps h
    obtain rfl := Except.ok.inj h
    simp
  | cons x rest ih =>
    intro ps h
    simp only [bindAll, bind_eq_ok, pure_eq_ok] at h
    obtain ⟨p, hp, others, hothers, rfl⟩ := h
    rw [List.all_cons, Bool.and_eq_true, ih hothers, List.forall_mem_cons, hp]
    simp

end Predicate

namespace Condition.Adds

variable {added : Condition} {conditions extended : List Condition} {now : String} {s : Scope}

/-- What is true of the condition that always holds is true of all conditions if it is of the others
and of the one that is added. -/
theorem forall_iff (h : Adds added conditions extended) {P : Condition → Prop}
    (halways : P .always) :
    (∀ x ∈ extended, P x) ↔ (∀ x ∈ conditions, P x) ∧ P added := by
  constructor
  · intro hall
    have hone {x : Condition} (hx : x ∈ conditions ∨ x = added) : P x := by
      by_cases heq : x = .always
      · exact heq ▸ halways
      · exact hall x ((h x heq).2 hx)
    exact ⟨fun x hx => hone (.inl hx), hone (.inr rfl)⟩
  · rintro ⟨hall, hadded⟩ x hx
    by_cases heq : x = .always
    · exact heq ▸ halways
    · rcases (h x heq).1 hx with hx | rfl
      · exact hall x hx
      · exact hadded

/-- Conditions with one more can be bound if they can, and the one more can. -/
theorem bindAll (h : Adds added conditions extended) :
    (∃ ps, Predicate.bindAll now s extended = .ok ps) ↔
      (∃ ps, Predicate.bindAll now s conditions = .ok ps) ∧
        ∃ p, Predicate.bind now s added = .ok p := by
  rw [Predicate.bindAll_succeeds, Predicate.bindAll_succeeds, h.forall_iff ⟨.always, rfl⟩]

/-- A record meets conditions with one more if it meets them and the one more. -/
theorem passes (h : Adds added conditions extended) {ps ps' : List Predicate} {p : Predicate}
    (hps : Predicate.bindAll now s conditions = .ok ps)
    (hps' : Predicate.bindAll now s extended = .ok ps')
    (hp : Predicate.bind now s added = .ok p) (r : Record) :
    ps'.all (Predicate.passes r) = (ps.all (Predicate.passes r) && p.passes r) := by
  have halways (q : Predicate) (hq : Predicate.bind now s .always = .ok q) :
      q.passes r = true := by
    obtain rfl := Except.ok.inj hq
    rfl
  rw [Bool.eq_iff_iff, Bool.and_eq_true, Predicate.bindAll_passes _ hps,
    Predicate.bindAll_passes _ hps', h.forall_iff halways, hp]
  simp

end Condition.Adds

/-! ## Counting -/

/-- A column is counted where the condition that it is not null holds. -/
theorem Tally.counts_eq (header key : String) (r : Record) :
    Tally.counts ⟨header, some key⟩ r =
      (Predicate.test key (.nullTest true) .absent).holds r := by
  have hnull (v : Value) :
      (!v.isNull) = Operator.holds (.nullTest true) (.value v) .absent := by
    show (!v.isNull) = (v.isNull != true)
    cases v.isNull <;> rfl
  unfold counts Predicate.holds
  simp only [hnull]

/-- A count that ends without a fault is how many records it holds of. -/
theorem Answer.count_frames_eq {t : Tally} {p : Record → Bool}
    (hp : ∀ r x, t.counts r = .ok x → x = p r) {records : List Record} {ended : Option Fault}
    {frames : List Frame} (h : (Answer.count t).frames records ended = (frames, none)) :
    frames = .header [t.header] :: [[toString (records.countP p)]].map .row ++ [.done] := by
  obtain ⟨counted, hcounted, rfl⟩ := tally_frames h
  have hall : counted = records.map p := by
    rw [← List.forall₂_eq_eq_eq, List.forall₂_map_right_iff]
    exact hcounted.imp fun x r hx => hp r x hx
  rw [hall, List.count_eq_countP, List.countP_map]
  simp [Function.comp_def]

/-! ## Execution -/

namespace Select

variable {times : Times} {c : Catalog} {s : Select} {q : Query}

/-- A SELECT that succeeds is bound, and no stray level ends it. -/
theorem execute_fault_none (hc : c.Reachable) :
    ((Statement.select s).execute times c).fault = none ↔
      ∃ q, s.bind (times 0) c = .ok q ∧ q.scanFault = none := by
  cases hbind : s.bind (times 0) c with
  | error f =>
    rw [execute_of_error hbind]
    simp
  | ok q =>
    rw [execute_fault hc hbind]
    simp

/-- A SELECT without stages that is bound and meets no stray level writes what is made of its
records, and ends without a fault. -/
theorem execute_records (hc : c.Reachable) (hbind : s.bind (times 0) c = .ok q)
    (hstages : q.stages = []) (hfault : q.scanFault = none) :
    ∃ frames, q.answer.frames q.records.1 q.records.2 = (frames, none) ∧
      (Statement.select s).execute times c = ⟨c, frames, none⟩ := by
  have hended : (q.answer.frames q.records.1 q.records.2).2 = none :=
    (Query.frames_fault (bind_sound hc hbind)).trans hfault
  refine ⟨_, Prod.ext rfl hended, ?_⟩
  show Select.execute (times 0) s c = _
  unfold Select.execute
  rw [hbind]
  simp only [Query.frames, hstages, Stage.passAll_nil, hended]

/-- A SELECT of columns that is bound and meets no stray level answers with a row for each of its
records. -/
theorem execute_cells (hc : c.Reachable) (hbind : s.bind (times 0) c = .ok q)
    (hstages : q.stages = []) (hfault : q.scanFault = none) {l : Layout}
    (hanswer : q.answer = .cells l) :
    ∃ rows, (Statement.select s).execute times c = .ofRows c l.header rows ∧
      rows.length = q.records.1.length := by
  obtain ⟨frames, hframes, hexec⟩ := execute_records hc hbind hstages hfault
  obtain ⟨selected, hperm, rfl⟩ := Answer.cells_frames (hanswer ▸ hframes)
  exact ⟨selected.map l.cells, hexec, by rw [List.length_map, hperm.length_eq]⟩

/-- A COUNT that is bound and meets no stray level answers with how many of its records count. -/
theorem execute_tally (hc : c.Reachable) (hbind : s.bind (times 0) c = .ok q)
    (hstages : q.stages = []) (hfault : q.scanFault = none) {t : Tally}
    (hanswer : q.answer = .count t) {p : Record → Bool}
    (hp : ∀ r x, t.counts r = .ok x → x = p r) :
    (Statement.select s).execute times c =
      .ofRows c [t.header] [[toString (q.records.1.countP p)]] := by
  obtain ⟨frames, hframes, hexec⟩ := execute_records hc hbind hstages hfault
  obtain rfl := Answer.count_frames_eq hp (hanswer ▸ hframes)
  exact hexec

end Select

/-- A query counts what another shows: both have the same levels, and as many records of the one
count as the other has. -/
structure Query.CountedBy (header : String) (shown count : Query) : Prop where
  base : count.base = shown.base
  levels : count.levels = shown.levels
  stages : count.stages = [] ∧ shown.stages = []
  cells : ∃ l, shown.answer = .cells l
  tally : ∃ t p, count.answer = .count t ∧ t.header = header ∧
    (∀ r x, t.counts r = .ok x → x = p r) ∧ count.records.1.countP p = shown.records.1.length

namespace Query.CountedBy

variable {header : String} {shown count : Query}

/-- Whether a scan meets a stray level depends on the levels only. -/
theorem scanFault (h : CountedBy header shown count) : count.scanFault = shown.scanFault := by
  unfold Query.scanFault Query.stray? Query.reaches
  rw [h.base, h.levels]

end Query.CountedBy

/-- A COUNT counts the rows of a SELECT if either is bound where the other is, to queries of which
the one counts what the other shows. -/
theorem Outcome.Counts.of_bind {c : Catalog} (hc : c.Reachable) {times : Times} {header : String}
    {count shown : Select}
    (hcount : ∀ q', count.bind (times 0) c = .ok q' →
      ∃ q, shown.bind (times 0) c = .ok q ∧ q.CountedBy header q')
    (hshown : ∀ q, shown.bind (times 0) c = .ok q →
      ∃ q', count.bind (times 0) c = .ok q' ∧ q.CountedBy header q') :
    Counts c header ((Statement.select count).execute times c)
      ((Statement.select shown).execute times c) := by
  constructor
  · rw [Select.execute_fault_none hc, Select.execute_fault_none hc]
    constructor
    · rintro ⟨q', hq', hfault⟩
      obtain ⟨q, hq, hcounted⟩ := hcount q' hq'
      exact ⟨q, hq, hcounted.scanFault ▸ hfault⟩
    · rintro ⟨q, hq, hfault⟩
      obtain ⟨q', hq', hcounted⟩ := hshown q hq
      exact ⟨q', hq', hcounted.scanFault.trans hfault⟩
  · intro hnone
    obtain ⟨q, hq, hfault⟩ := (Select.execute_fault_none hc).1 hnone
    obtain ⟨q', hq', hcounted⟩ := hshown q hq
    obtain ⟨l, hcells⟩ := hcounted.cells
    obtain ⟨t, p, htally, rfl, hp, hsame⟩ := hcounted.tally
    obtain ⟨rows, hrows, hlength⟩ := Select.execute_cells hc hq hcounted.stages.2 hfault hcells
    refine ⟨l.header, rows, hrows, ?_⟩
    rw [hlength, ← hsame]
    exact Select.execute_tally hc hq' hcounted.stages.1 (hcounted.scanFault.trans hfault) htally hp

namespace Body

variable {now : String} {c : Catalog} {b : Body}

/-- A SELECT of all columns is bound if the body is. -/
theorem bind_star {q : Query} :
    (b.select [.star]).bind now c = .ok q ↔ ∃ scope base levels ps,
      c.FindsTables b.tables b.joins scope base levels ∧
      Predicate.bindAll now scope b.conditions = .ok ps ∧
      q = ⟨base, levels, ps,
        .cells ⟨scope.allColumns.map (·.2), scope.allColumns.map (·.1), []⟩, []⟩ := by
  have hstar (scope : Scope) : Answer.bind [.star] [] scope =
      .ok (.cells ⟨scope.allColumns.map (·.2), scope.allColumns.map (·.1), []⟩) := by
    simp [Answer.bind, Answer.isCount, Layout.bind, Layout.allColumns, Layout.columns,
      Layout.sortColumns]
  rw [Select.bind_iff]
  constructor
  · rintro ⟨scope, base, levels, ps, answer, hfinds, hps, hanswer, rfl⟩
    obtain rfl := Except.ok.inj ((hstar scope).symm.trans hanswer)
    exact ⟨scope, base, levels, ps, hfinds, hps, rfl⟩
  · rintro ⟨scope, base, levels, ps, hfinds, hps, rfl⟩
    exact ⟨scope, base, levels, ps, _, hfinds, hps, hstar scope, rfl⟩

/-- The COUNT of a column is bound if the body is, and the column can be resolved. -/
theorem bind_column {ref : ColumnRef} {q : Query} :
    (b.select [.count (.column ref)]).bind now c = .ok q ↔ ∃ scope base levels ps key,
      c.FindsTables b.tables b.joins scope base levels ∧
      Predicate.bindAll now scope b.conditions = .ok ps ∧ scope.resolve ref = .ok key ∧
      q = ⟨base, levels, ps, .count ⟨"COUNT(" ++ ref.text ++ ")", some key⟩, []⟩ := by
  rw [Select.bind_iff]
  constructor
  · rintro ⟨scope, base, levels, ps, answer, hfinds, hps, hanswer, rfl⟩
    simp only [select, Answer.bind, Tally.bind, bind_eq_ok, pure_eq_ok] at hanswer
    obtain ⟨_, ⟨key, hkey, rfl⟩, rfl⟩ := hanswer
    exact ⟨scope, base, levels, ps, key, hfinds, hps, hkey, rfl⟩
  · rintro ⟨scope, base, levels, ps, key, hfinds, hps, hkey, rfl⟩
    refine ⟨scope, base, levels, ps, _, hfinds, hps, ?_, rfl⟩
    simp only [select, Answer.bind, Tally.bind, hkey]
    rfl

/-- All records count. -/
theorem countedBy_star {q : Query} (h : (b.select [.star]).bind now c = .ok q) :
    q.CountedBy "COUNT(*)" { q with answer := .count ⟨"COUNT(*)", none⟩ } := by
  obtain ⟨scope, base, levels, ps, -, -, rfl⟩ := bind_star.1 h
  refine ⟨rfl, rfl, ⟨rfl, rfl⟩, ⟨_, rfl⟩, _, fun _ => true, rfl, rfl, fun r x hx => ?_, ?_⟩
  · exact (Except.ok.inj hx).symm
  · exact congrFun List.countP_true _

/-- The records that count in a column are those that also meet the condition that it is not
null. -/
theorem countedBy_column (hc : c.Reachable) {ref : ColumnRef} {extended : List Condition}
    (hadds : Condition.Adds (.nullTest ref true) b.conditions extended) {scope : Scope}
    {base : Level} {levels : List Level} {ps ps' : List Predicate} {key : String} {l : Layout}
    (hcount : (b.select [.count (.column ref)]).bind now c =
      .ok ⟨base, levels, ps, .count ⟨"COUNT(" ++ ref.text ++ ")", some key⟩, []⟩)
    (hshown : (Body.select { b with conditions := extended } [.star]).bind now c =
      .ok ⟨base, levels, ps', .cells l, []⟩)
    (hps : Predicate.bindAll now scope b.conditions = .ok ps)
    (hps' : Predicate.bindAll now scope extended = .ok ps') (hkey : scope.resolve ref = .ok key) :
    Query.CountedBy ("COUNT(" ++ ref.text ++ ")") ⟨base, levels, ps', .cells l, []⟩
      ⟨base, levels, ps, .count ⟨"COUNT(" ++ ref.text ++ ")", some key⟩, []⟩ := by
  let test : Predicate := .test key (.nullTest true) .absent
  have htest : Predicate.bind now scope (.nullTest ref true) = .ok test := by
    rw [Predicate.bind, hkey]
    rfl
  refine ⟨rfl, rfl, ⟨rfl, rfl⟩, ⟨_, rfl⟩, _, fun r => test.passes r, rfl, rfl,
    fun r x hx => ?_, ?_⟩
  · rw [Tally.counts_eq] at hx
    exact (Predicate.passes_of_ok hx).symm
  · rw [Query.records_eq (Select.bind_sound hc hcount),
      Query.records_eq (Select.bind_sound hc hshown)]
    dsimp only
    rw [List.countP_filter, List.countP_eq_length_filter]
    congr 2
    funext r
    rw [hadds.passes hps hps' htest, Bool.and_comm]

/-- COUNT(*) counts the rows of the SELECT of all columns. -/
theorem counts_star (hc : c.Reachable) (times : Times) (b : Body) :
    Outcome.Counts c "COUNT(*)"
      ((Statement.select (b.select [.count .star])).execute times c)
      ((Statement.select (b.select [.star])).execute times c) := by
  refine .of_bind hc (fun q' hq' => ?_) fun q hq => ?_
  · rw [bind_count_star] at hq'
    cases hbind : (b.select [.star]).bind (times 0) c with
    | error f =>
      rw [hbind] at hq'
      cases hq'
    | ok q =>
      rw [hbind] at hq'
      obtain rfl := Except.ok.inj hq'
      exact ⟨q, rfl, countedBy_star hbind⟩
  · exact ⟨_, by rw [bind_count_star, hq]; rfl, countedBy_star hq⟩

/-- The COUNT of a column counts the rows of the SELECT that asks for the column not to be null. -/
theorem counts_column (hc : c.Reachable) (times : Times) {ref : ColumnRef}
    {extended : List Condition}
    (hadds : Condition.Adds (.nullTest ref true) b.conditions extended) :
    Outcome.Counts c ("COUNT(" ++ ref.text ++ ")")
      ((Statement.select (b.select [.count (.column ref)])).execute times c)
      ((Statement.select (Body.select { b with conditions := extended } [.star])).execute
        times c) := by
  refine .of_bind hc (fun q' hq' => ?_) fun q hq => ?_
  · obtain ⟨scope, base, levels, ps, key, hfinds, hps, hkey, rfl⟩ := bind_column.1 hq'
    obtain ⟨ps', hps'⟩ := hadds.bindAll.2 ⟨⟨ps, hps⟩, _, by rw [Predicate.bind, hkey]; rfl⟩
    have hq := (bind_star (b := { b with conditions := extended })).2
      ⟨scope, base, levels, ps', hfinds, hps', rfl⟩
    exact ⟨_, hq, countedBy_column hc hadds hq' hq hps hps' hkey⟩
  · obtain ⟨scope, base, levels, ps', hfinds, hps', rfl⟩ := bind_star.1 hq
    obtain ⟨⟨ps, hps⟩, p, hp⟩ := hadds.bindAll.1 ⟨ps', hps'⟩
    simp only [Predicate.bind, bind_eq_ok] at hp
    obtain ⟨key, hkey, -⟩ := hp
    have hq' := (bind_column (b := b)).2 ⟨scope, base, levels, ps, key, hfinds, hps, hkey, rfl⟩
    exact ⟨_, hq', countedBy_column hc hadds hq' hq hps hps' hkey⟩

end Body

/-! ## Top theorem -/

/-- In a catalog that statements have led to, whatever tables, joins and conditions there are:
COUNT(*) ends as the SELECT of all columns does, and counts its rows.  The COUNT of a column
succeeds where the SELECT does that also asks for the column not to be null, and counts the rows of
that. -/
theorem Catalog.Reachable.counts_agree {c : Catalog} (hc : c.Reachable) (times : Times) (b : Body) :
    ((Statement.select (b.select [.count .star])).execute times c).fault =
        ((Statement.select (b.select [.star])).execute times c).fault ∧
      Outcome.Counts c "COUNT(*)"
        ((Statement.select (b.select [.count .star])).execute times c)
        ((Statement.select (b.select [.star])).execute times c) ∧
      ∀ (ref : ColumnRef) (extended : List Condition),
        Condition.Adds (.nullTest ref true) b.conditions extended →
        Outcome.Counts c ("COUNT(" ++ ref.text ++ ")")
          ((Statement.select (b.select [.count (.column ref)])).execute times c)
          ((Statement.select (Body.select { b with conditions := extended } [.star])).execute
            times c) := by
  refine ⟨?_, b.counts_star hc times, fun ref extended => Body.counts_column hc times⟩
  have hcount := b.bind_count_star (times 0) c
  cases hbind : (b.select [.star]).bind (times 0) c with
  | error f =>
    rw [hbind] at hcount
    rw [Select.execute_of_error hbind, Select.execute_of_error hcount]
  | ok q =>
    rw [hbind] at hcount
    rw [Select.execute_fault hc hbind, Select.execute_fault hc hcount]
    exact (Body.countedBy_star hbind).scanFault

/-- Three pairs of rows are joined, and one of them has no null in the column that is counted. -/
theorem counts_agree_of_join :
    let c := Catalog.after
      [(fun _ => "", .createTable ⟨"a", false, [⟨"x", "text", false, []⟩], []⟩),
        (fun _ => "", .createTable ⟨"b", false,
          [⟨"x", "text", false, []⟩, ⟨"y", "text", false, []⟩], []⟩),
        (fun _ => "", .insert ⟨"a", ["x"], [[⟨.string, "p"⟩], [⟨.string, "q"⟩]], none⟩),
        (fun _ => "", .insert ⟨"b", ["x", "y"], [[⟨.string, "p"⟩, ⟨.string, "1"⟩],
          [⟨.string, "p"⟩, ⟨.null, "null"⟩], [⟨.string, "q"⟩, ⟨.null, "null"⟩]], none⟩)]
    let b : Body := ⟨["a"], [⟨"b", ⟨some "a", "x"⟩, ⟨some "b", "x"⟩⟩], [.always]⟩
    let all := (Statement.select (b.select [.count .star])).execute (fun _ => "") c
    let noted := (Statement.select (b.select [.count (.column ⟨none, "y"⟩)])).execute
      (fun _ => "") c
    all = .ofRows c ["COUNT(*)"] [["3"]] ∧ noted = .ofRows c ["COUNT(y)"] [["1"]] ∧
      Outcome.Counts c "COUNT(*)" all
        ((Statement.select (b.select [.star])).execute (fun _ => "") c) ∧
      Outcome.Counts c "COUNT(y)" noted
        ((Statement.select (Body.select { b with conditions := [.nullTest ⟨none, "y"⟩ true] }
          [.star])).execute (fun _ => "") c) := by
  intro c b all noted
  have hadds : Condition.Adds (.nullTest ⟨none, "y"⟩ true) b.conditions
      [.nullTest ⟨none, "y"⟩ true] := fun x hx => by simp [b, hx]
  have hall : all = .ofRows c ["COUNT(*)"] [["3"]] := by decide +kernel
  have hnoted : noted = .ofRows c ["COUNT(y)"] [["1"]] := by decide +kernel
  obtain ⟨-, hstar, hcolumn⟩ := (Catalog.Reachable.after _).counts_agree (fun _ => "") b
  exact ⟨hall, hnoted, hstar, hcolumn _ _ hadds⟩

end Tabula
