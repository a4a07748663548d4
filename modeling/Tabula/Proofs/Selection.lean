import Tabula.Execution
import Tabula.Proofs.Binding
import Tabula.Proofs.Shape
import Tabula.Proofs.Stages

/-!
# SELECT answers with the combinations that meet every condition

* `Select.selected` and `Select.cells`: the answer, said of combinations.
* `Select.bind_iff`, `Answer.bind_cases`: what a SELECT is bound to; nothing else takes the binding of
  an arbitrary SELECT apart.
* `Select.execute_eq_answer`: a SELECT that neither counts, sorts nor leaves out rows gives that
  answer, and changes nothing.
-/

namespace Tabula

/-! ## Algorithm -/

/-- A table of a catalog as a source of a query, without columns and rows where there is none. -/
def Catalog.source (c : Catalog) (name : String) : Source :=
  match c.get? name with
  | some r => ⟨name, r.table.columnNames, r.rows⟩
  | none => ⟨name, [], []⟩

/-- The outcome of a query that answers with rows. -/
def Outcome.ofRows (c : Catalog) (header : List String) (rows : List (List String)) : Outcome :=
  ⟨c, .header header :: rows.map .row ++ [.done], none⟩

namespace Select

/-- The tables after FROM, each once, and the joined tables with their ON equalities. -/
def steps (s : Select) : List (String × Option Join) :=
  s.tables.eraseDups.map (·, none) ++ s.joins.map fun j => (j.table, some j)

/-- The sources of a query. -/
def sources (c : Catalog) (s : Select) : List Source :=
  s.steps.map fun step => c.source step.1

/-- The sources of a query, with the ON equalities that their rows have to meet. -/
def plan (c : Catalog) (s : Select) : List (Source × Option Join) :=
  s.steps.map fun step => (c.source step.1, step.2)

/-- The combinations that meet every ON equality and every condition. -/
def selected (now : String) (c : Catalog) (s : Select) : List Combination :=
  (combinations (s.sources c)).filter fun combination =>
    s.joins.all (·.meets (s.sources c) combination) &&
      s.conditions.all (·.meets now (s.sources c) combination)

/-- The names of the columns of the answer. -/
def header (c : Catalog) (s : Select) : List String :=
  s.projections.flatMap (·.header (s.sources c))

/-- What the answer shows of a combination. -/
def cells (c : Catalog) (s : Select) (combination : Combination) : List String :=
  (s.projections.flatMap (·.values (s.sources c) combination)).map (·.canonical)

/-- The rows of the answer, in order. -/
def answerRows (now : String) (c : Catalog) (s : Select) : List (List String) :=
  (s.selected now c).map (s.cells c)

/-- The frames of the answer. -/
def answerFrames (now : String) (c : Catalog) (s : Select) : List Frame :=
  .header (s.header c) :: (s.answerRows now c).map .row ++ [.done]

/-- The references of conditions and projections. -/
def references (s : Select) : List ColumnRef :=
  s.conditions.flatMap (·.references) ++ s.projections.flatMap (·.references)

/-- Nothing is counted, sorted, compared or left out. -/
structure Plain (s : Select) : Prop where
  distinct : s.distinct = none
  projections : ∀ p ∈ s.projections, Answer.isCount p = false
  orderBy : s.orderBy = []
  limit : s.limit = none
  offset : s.offset = none

/-- What can be found wrong with a query before a look at the rows is not: every table is there,
joined tables are new, references can be resolved, and ON equalities pair a column of the joined
table with an earlier one.  No name of a table has a point in it. -/
structure Sound (c : Catalog) (s : Select) : Prop where
  tables : s.tables ≠ []
  present : ∀ step ∈ s.steps, c.contains step.1
  dotless : ∀ step ∈ s.steps, Dotless step.1
  joined_once : (s.joins.map (·.table)).Nodup
  joined_new : ∀ j ∈ s.joins, j.table ∉ s.tables
  references : ∀ ref ∈ s.references,
    ∃ key, (Scope.mk (Source.listed (s.sources c))).resolve ref = .ok key
  pairs : ∀ (n : Nat) (j : Join), s.joins[n]? = some j →
    j.Pairs (s.sources c) (s.tables.eraseDups.length + n)

end Select

/-- What is found of tables and joins: the columns that can be seen, the level whose rows come
first, and the levels that are joined to it. -/
inductive Catalog.FindsTables (c : Catalog) (tables : List String) (joins : List Join) :
    Scope → Level → List Level → Prop where
  | intro {first : String} {others : List String} {columns : List (String × List String)}
      {r : Relation} {crossed joined : List Level} :
      (tables ++ joins.map (·.table)).eraseDups = first :: others →
      Select.tableColumns c (first :: others) = .ok columns → c.get first = .ok r →
      Select.crossedLevels c (tables.eraseDups.drop 1) = .ok crossed →
      Select.joinedLevels c (.ofList columns) joins = .ok joined →
      FindsTables c tables joins (.ofList columns) ⟨first, r, none⟩ (crossed ++ joined)

/-! ## Lemmas -/

theorem eraseDups_of_nodup {α : Type} [DecidableEq α] {xs : List α} (h : xs.Nodup) :
    xs.eraseDups = xs := by
  induction xs with
  | nil => rfl
  | cons x rest ih =>
    obtain ⟨hx, hrest⟩ := List.nodup_cons.1 h
    rw [List.eraseDups_cons, List.filter_eq_self.2, ih hrest]
    intro y hy
    have hne : y ≠ x := fun heq => hx (heq ▸ hy)
    simpa using hne

theorem nodup_eraseDups {α : Type} [DecidableEq α] (xs : List α) : xs.eraseDups.Nodup := by
  match xs with
  | [] => exact List.nodup_nil
  | x :: rest =>
    rw [List.eraseDups_cons, List.nodup_cons]
    refine ⟨fun hx => ?_, nodup_eraseDups _⟩
    have := (List.mem_filter.1 (List.mem_eraseDups.1 hx)).2
    simp at this
termination_by xs.length
decreasing_by exact Nat.lt_succ_of_le (List.length_filter_le _ _)

theorem Catalog.source_eq {c : Catalog} {name : String} {r : Relation} (h : c.get? name = some r) :
    c.source name = ⟨name, r.table.columnNames, r.rows⟩ := by
  rw [Catalog.source, h]

theorem Catalog.source_name (c : Catalog) (name : String) : (c.source name).name = name := by
  unfold Catalog.source
  cases c.get? name with
  | none => rfl
  | some r => rfl

/-! ### What is found -/

/-- A SELECT is bound if its tables and joins are found, and its conditions and columns among what
they can see. -/
theorem Select.bind_iff {now : String} {c : Catalog} {s : Select} {q : Query} :
    s.bind now c = .ok q ↔ ∃ scope base levels ps answer,
      c.FindsTables s.tables s.joins scope base levels ∧
      Predicate.bindAll now scope s.conditions = .ok ps ∧
      Answer.bind s.projections s.orderBy scope = .ok answer ∧
      q = ⟨base, levels, ps, answer, s.stages⟩ := by
  constructor
  · intro h
    unfold Select.bind at h
    split at h
    · cases h
    · next first others hnames =>
      simp only [bind_eq_ok, pure_eq_ok] at h
      obtain ⟨columns, hcolumns, ps, hps, base, hbase, crossed, hcrossed, joined, hjoined, answer,
        hanswer, rfl⟩ := h
      rw [hnames] at hcolumns
      exact ⟨_, _, _, ps, answer, .intro hnames hcolumns hbase hcrossed hjoined, hps, hanswer, rfl⟩
  · rintro ⟨_, _, _, ps, answer, hfinds, hps, hanswer, rfl⟩
    obtain ⟨hnames, hcolumns, hbase, hcrossed, hjoined⟩ := hfinds
    have hnames : s.tableNames = _ := hnames
    unfold Select.bind
    rw [hnames]
    dsimp only
    rw [hcolumns, ok_bind, hps, ok_bind, hbase, ok_bind]
    unfold Select.crossedNames
    rw [hcrossed, ok_bind, hjoined, ok_bind, hanswer]
    rfl

/-- An answer is one count, or cells of columns that were all looked up. -/
theorem Answer.bind_cases {projections : List Projection} {orderBy : List SortKey} {s : Scope}
    {a : Answer} (h : Answer.bind projections orderBy s = .ok a) :
    (∃ arg t, projections = [.count arg] ∧ Tally.bind arg s = .ok t ∧ a = .count t) ∨
      ∃ found sort, Layout.allColumns s projections = .ok found ∧
        Layout.sortColumns s orderBy = .ok sort ∧
        a = .cells ⟨found.map (·.2), found.map (·.1), sort⟩ := by
  unfold Answer.bind at h
  split at h
  · next arg =>
    simp only [bind_eq_ok, pure_eq_ok] at h
    obtain ⟨t, ht, rfl⟩ := h
    exact .inl ⟨arg, t, rfl, ht, rfl⟩
  · split at h
    · cases h
    · simp only [Layout.bind, bind_eq_ok, pure_eq_ok] at h
      obtain ⟨l, ⟨found, hfound, sort, hsort, rfl⟩, rfl⟩ := h
      exact .inr ⟨found, sort, hfound, hsort, rfl⟩

namespace Select

/-! ### Sources -/

theorem sources_names (c : Catalog) (s : Select) :
    (s.sources c).map (·.name) = s.steps.map (·.1) := by
  rw [sources, List.map_map]
  exact List.map_congr_left fun step _ => c.source_name step.1

theorem steps_names (s : Select) :
    s.steps.map (·.1) = s.tables.eraseDups ++ s.joins.map (·.table) := by
  simp [steps, Function.comp_def]

/-- The steps that have an ON equality are those of the joins. -/
theorem steps_getElem? {s : Select} {n : Nat} {name : String} {j : Join}
    (h : s.steps[n]? = some (name, some j)) :
    ∃ k, n = s.tables.eraseDups.length + k ∧ s.joins[k]? = some j := by
  rw [steps, List.getElem?_append] at h
  split at h
  · simp at h
  · next hle =>
    rw [List.length_map] at h hle
    rw [List.getElem?_map, Option.map_eq_some_iff] at h
    obtain ⟨j', hj, heq⟩ := h
    obtain rfl : j' = j := Option.some.inj (congrArg Prod.snd heq)
    exact ⟨_, (Nat.add_sub_cancel' (Nat.le_of_not_lt hle)).symm, hj⟩

namespace Sound

variable {c : Catalog} {s : Select}

theorem names_nodup (h : s.Sound c) : (s.steps.map (·.1)).Nodup := by
  rw [steps_names, List.nodup_append]
  refine ⟨nodup_eraseDups _, h.joined_once, ?_⟩
  rintro name hname _ hjoined rfl
  obtain ⟨j, hj, rfl⟩ := List.mem_map.1 hjoined
  exact h.joined_new j hj (List.mem_eraseDups.1 hname)

/-- The tables are named in the order of the sources. -/
theorem tableNames_eq (h : s.Sound c) : s.tableNames = s.steps.map (·.1) := by
  have hnodup := h.names_nodup
  rw [steps_names] at hnodup ⊢
  have hremove : (s.joins.map (·.table)).removeAll s.tables = s.joins.map (·.table) := by
    refine List.filter_eq_self.2 fun name hname => ?_
    obtain ⟨j, hj, rfl⟩ := List.mem_map.1 hname
    simpa using h.joined_new j hj
  rw [tableNames, List.eraseDups_append, hremove, eraseDups_of_nodup h.joined_once]

theorem get? (h : s.Sound c) {name : String} (hname : name ∈ s.steps.map (·.1)) :
    ∃ r, c.get? name = some r := by
  obtain ⟨step, hstep, rfl⟩ := List.mem_map.1 hname
  exact Option.isSome_iff_exists.1 (h.present step hstep)

theorem distinct (h : s.Sound c) (hc : c.Even) : Source.Distinct (s.sources c) where
  names := by rw [sources_names]; exact h.names_nodup
  dotless := by
    intro src hsrc
    obtain ⟨step, hstep, rfl⟩ := List.mem_map.1 hsrc
    rw [c.source_name]
    exact h.dotless step hstep
  columns := by
    intro src hsrc
    obtain ⟨step, hstep, rfl⟩ := List.mem_map.1 hsrc
    obtain ⟨r, hr⟩ := h.get? (List.mem_map_of_mem hstep)
    rw [Catalog.source_eq hr]
    exact (hc _ r hr).names

theorem even (h : s.Sound c) (hc : c.Even) : Source.Even (s.sources c) := by
  intro src hsrc row hrow
  obtain ⟨step, hstep, rfl⟩ := List.mem_map.1 hsrc
  obtain ⟨r, hr⟩ := h.get? (List.mem_map_of_mem hstep)
  rw [Catalog.source_eq hr] at hrow ⊢
  rw [(hc _ r hr).widths row hrow, Table.columnNames, List.length_map]

end Sound

/-! ### Levels -/

theorem tableColumns_eq {c : Catalog} (names : List String)
    (h : ∀ name ∈ names, ∃ r, c.get? name = some r) :
    tableColumns c names = .ok (Source.listed (names.map c.source)) := by
  induction names with
  | nil => rfl
  | cons name rest ih =>
    obtain ⟨r, hr⟩ := h name List.mem_cons_self
    rw [tableColumns, Catalog.get_eq_ok.2 hr, ih fun n hn => h n (List.mem_cons_of_mem _ hn)]
    simp [Source.listed, Catalog.source_eq hr]

/-- The tables of a scope are those of the catalog, under their names. -/
theorem tableColumns_eq_ok {c : Catalog} (names : List String) :
    ∀ {tables : List (String × List String)}, tableColumns c names = .ok tables →
      tables.map (·.1) = names ∧
        ∀ entry ∈ tables, ∃ r, c.get? entry.1 = some r ∧ entry.2 = r.table.columnNames := by
  induction names with
  | nil =>
    intro tables h
    obtain rfl := Except.ok.inj h
    exact ⟨rfl, fun entry hentry => by cases hentry⟩
  | cons name rest ih =>
    intro tables h
    simp only [tableColumns, bind_eq_ok, pure_eq_ok] at h
    obtain ⟨r, hr, others, hothers, rfl⟩ := h
    obtain ⟨hnames, hcolumns⟩ := ih hothers
    refine ⟨by rw [List.map_cons, hnames], fun entry hentry => ?_⟩
    rcases List.mem_cons.1 hentry with rfl | hentry
    · exact ⟨r, Catalog.get_eq_ok.1 hr, rfl⟩
    · exact hcolumns entry hentry

theorem crossedLevels_serve {c : Catalog} (sources : List Source) (names : List String) :
    ∀ (place : Nat), (∀ name ∈ names, ∃ r, c.get? name = some r) →
      (∀ (n : Nat) (name : String), names[n]? = some name →
        sources[place + n]? = some (c.source name)) →
      ∃ levels, crossedLevels c names = .ok levels ∧ levels.length = names.length ∧
        Serving sources place levels (names.map fun name => (c.source name, none)) := by
  induction names with
  | nil => intro place _ _; exact ⟨[], rfl, rfl, .nil⟩
  | cons name rest ih =>
    intro place hthere hplaces
    obtain ⟨r, hr⟩ := hthere name List.mem_cons_self
    obtain ⟨levels, hlevels, hlen, hserving⟩ := ih (place + 1)
      (fun n hn => hthere n (List.mem_cons_of_mem _ hn)) fun n name' hn => by
        rw [Nat.add_assoc, Nat.add_comm 1 n]
        exact hplaces (n + 1) name' hn
    refine ⟨⟨name, r, none⟩ :: levels, ?_, by rw [List.length_cons, hlen, List.length_cons], ?_⟩
    · rw [crossedLevels, Catalog.get_eq_ok.2 hr, hlevels]
      rfl
    · have hsource := hplaces 0 name rfl
      rw [List.map_cons, Catalog.source_eq hr]
      rw [Catalog.source_eq hr] at hsource
      exact .cons (Level.serves_none hsource) hserving

theorem joinedLevels_serve {c : Catalog} {sources : List Source}
    (hsources : Source.Distinct sources) (joins : List Join) :
    ∀ (place : Nat), (∀ j ∈ joins, ∃ r, c.get? j.table = some r) →
      (∀ (n : Nat) (j : Join), joins[n]? = some j →
        sources[place + n]? = some (c.source j.table) ∧ j.Pairs sources (place + n)) →
      ∃ levels, joinedLevels c ⟨Source.listed sources⟩ joins = .ok levels ∧
        Serving sources place levels (joins.map fun j => (c.source j.table, some j)) := by
  induction joins with
  | nil => intro place _ _; exact ⟨[], rfl, .nil⟩
  | cons j rest ih =>
    intro place hthere hplaces
    obtain ⟨r, hr⟩ := hthere j List.mem_cons_self
    obtain ⟨levels, hlevels, hserving⟩ := ih (place + 1)
      (fun j hj => hthere j (List.mem_cons_of_mem _ hj)) fun n j' hn => by
        rw [Nat.add_assoc, Nat.add_comm 1 n]
        exact hplaces (n + 1) j' hn
    obtain ⟨hsource, hpairs⟩ := hplaces 0 j rfl
    rw [Catalog.source_eq hr, Nat.add_zero] at hsource
    rw [Nat.add_zero] at hpairs
    obtain ⟨e, he, hserves⟩ := Level.serves_some hsources hsource hpairs
    refine ⟨⟨j.table, r, some e⟩ :: levels, ?_, ?_⟩
    · rw [joinedLevels, Catalog.get_eq_ok.2 hr, ok_bind, he, hlevels]
      rfl
    · rw [List.map_cons, Catalog.source_eq hr]
      exact .cons hserves hserving

/-! ### Binding -/

/-- A query that asks of records what a SELECT asks of combinations. -/
structure Asks (now : String) (c : Catalog) (s : Select) (q : Query) : Prop where
  base : q.base.on = none
  serving : Serving (s.sources c) 0 (q.base :: q.levels) (s.plan c)
  predicates : ∀ (combination : Combination) (r : Record), combination.Whole (s.sources c) →
    Agrees (s.sources c) combination r →
    Predicate.all r q.predicates = .ok (s.conditions.all (·.meets now (s.sources c) combination))
  answer : ∃ keys, q.answer = .cells ⟨s.header c, keys, []⟩ ∧
    ∀ (combination : Combination) (r : Record), combination.Whole (s.sources c) →
      Agrees (s.sources c) combination r →
      Layout.Reads r keys (s.projections.flatMap (·.values (s.sources c) combination))
  stages : q.stages = []

theorem sources_getElem? {c : Catalog} {s : Select} {n : Nat} {name : String}
    (h : (s.steps.map (·.1))[n]? = some name) : (s.sources c)[n]? = some (c.source name) := by
  have hmap : s.sources c = (s.steps.map (·.1)).map c.source := by
    rw [sources, List.map_map]
    rfl
  rw [hmap, List.getElem?_map, h]
  rfl

/-- Columns are looked up for an answer that neither counts nor sorts. -/
theorem answer_bind_eq {s : Select} {scope : Scope} {found : List (String × String)}
    (h : s.Plain) (hfound : Layout.allColumns scope s.projections = .ok found) :
    Answer.bind s.projections s.orderBy scope =
      .ok (.cells ⟨found.map (·.2), found.map (·.1), []⟩) := by
  have hcount : s.projections.any Answer.isCount = false := by
    rw [List.any_eq_false]
    intro p hp
    rw [h.projections p hp]
    exact Bool.false_ne_true
  unfold Answer.bind
  split
  · next arg heq =>
    rw [heq] at hcount
    cases hcount
  · rw [if_neg (by rw [hcount]; exact Bool.false_ne_true), Layout.bind, hfound, h.orderBy]
    rfl

/-- The first table of FROM is where the steps begin. -/
theorem steps_names_cons {s : Select} {first : String} {others : List String}
    (htables : s.tables.eraseDups = first :: others) :
    s.steps.map (·.1) = first :: (others ++ s.joins.map (·.table)) := by
  rw [steps_names, htables, List.cons_append]

theorem plan_cons (c : Catalog) {s : Select} {first : String} {others : List String}
    (htables : s.tables.eraseDups = first :: others) :
    s.plan c = (c.source first, none) ::
      (others.map (fun name => (c.source name, none)) ++
        s.joins.map fun j => (c.source j.table, some j)) := by
  simp [plan, steps, htables, Function.comp_def]

/-- The levels that are found serve the steps after the first. -/
theorem Sound.levels_serve {c : Catalog} {s : Select} (h : s.Sound c) (hc : c.Even)
    {first : String} {others : List String} (htables : s.tables.eraseDups = first :: others) :
    ∃ crossed joined, crossedLevels c others = .ok crossed ∧
      joinedLevels c ⟨Source.listed (s.sources c)⟩ s.joins = .ok joined ∧
      Serving (s.sources c) 1 (crossed ++ joined)
        (others.map (fun name => (c.source name, none)) ++
          s.joins.map fun j => (c.source j.table, some j)) := by
  have hnames := steps_names_cons htables
  obtain ⟨crossed, hcrossed, hlen, hcrossing⟩ := crossedLevels_serve (s.sources c) others 1
    (fun name hname => h.get? (by rw [hnames]; simp [hname]))
    fun n name hn => sources_getElem? (by
      rw [hnames, Nat.add_comm, List.getElem?_cons_succ,
        List.getElem?_append_left (List.getElem?_eq_some_iff.1 hn).1, hn])
  obtain ⟨joined, hjoined, hjoining⟩ := joinedLevels_serve (h.distinct hc) s.joins
    (1 + others.length) (fun j hj => h.get? (by
      rw [hnames]
      exact List.mem_cons_of_mem _ (List.mem_append_right _ (List.mem_map_of_mem hj))))
    fun n j hn => by
      refine ⟨sources_getElem? ?_, ?_⟩
      · rw [hnames, Nat.add_assoc, Nat.add_comm, List.getElem?_cons_succ,
          List.getElem?_append_right (Nat.le_add_right _ _), Nat.add_sub_cancel_left,
          List.getElem?_map, hn]
        rfl
      · have hpairs := h.pairs n j hn
        rwa [htables, List.length_cons, Nat.add_comm others.length 1] at hpairs
  refine ⟨crossed, joined, hcrossed, hjoined, hcrossing.append ?_⟩
  rw [hlen]
  exact hjoining

theorem Sound.bind_asks {c : Catalog} {s : Select} (h : s.Sound c) (hplain : s.Plain)
    (hc : c.Even) (now : String) : ∃ q, s.bind now c = .ok q ∧ s.Asks now c q := by
  have hsources := h.distinct hc
  have hplaces : ∀ ref ∈ s.references, ∃ p, place? (s.sources c) ref = some p :=
    fun ref href => (Scope.resolves_iff hsources.names).1 (h.references ref href)
  obtain ⟨ps, hps, hall⟩ := Predicate.bindAll_covers hsources.names now s.conditions
    fun ref href => hplaces ref (List.mem_append_left _ href)
  obtain ⟨found, hfound, hheader, hreads⟩ := Layout.allColumns_covers hsources.names s.projections
    hplain.projections fun ref href => hplaces ref (List.mem_append_right _ href)
  have hscope : tableColumns c (s.steps.map (·.1)) = .ok (Source.listed (s.sources c)) := by
    rw [tableColumns_eq _ fun name => h.get?, List.map_map]
    rfl
  have hlisted : Scope.ofList (Source.listed (s.sources c)) = ⟨Source.listed (s.sources c)⟩ := by
    refine Scope.ofList_of_nodup ?_
    simpa [Source.listed, Function.comp_def] using hsources.names
  obtain ⟨first, others, htables⟩ : ∃ first others, s.tables.eraseDups = first :: others := by
    obtain ⟨t, ts, ht⟩ := List.exists_cons_of_ne_nil h.tables
    exact ⟨t, _, by rw [ht, List.eraseDups_cons]⟩
  have hnames := steps_names_cons htables
  have hthere : first ∈ s.steps.map (·.1) := by
    rw [hnames]
    exact List.mem_cons_self
  obtain ⟨r, hr⟩ := h.get? hthere
  have hfirst : (s.sources c)[0]? = some ⟨first, r.table.columnNames, r.rows⟩ := by
    rw [← Catalog.source_eq hr]
    exact sources_getElem? (by rw [hnames]; rfl)
  obtain ⟨crossed, joined, hcrossed, hjoined, hserving⟩ := h.levels_serve hc htables
  refine ⟨⟨⟨first, r, none⟩, crossed ++ joined, ps,
    .cells ⟨found.map (·.2), found.map (·.1), []⟩, s.stages⟩, ?_, ?_⟩
  · have hcrossedNames : s.crossedNames = others := by
      rw [crossedNames, htables]
      rfl
    unfold Select.bind
    rw [h.tableNames_eq]
    simp only [hnames] at hscope ⊢
    rw [hscope, ok_bind, hlisted, hps, ok_bind, Catalog.get_eq_ok.2 hr, ok_bind, hcrossedNames,
      hcrossed, ok_bind, hjoined, ok_bind, answer_bind_eq hplain hfound]
    rfl
  · refine ⟨rfl, ?_, hall, ⟨_, by rw [hheader]; rfl, hreads⟩, ?_⟩
    · rw [plan_cons c htables, Catalog.source_eq hr]
      exact .cons (Level.serves_none hfirst) hserving
    · simp [Select.stages, hplain.distinct, hplain.limit, hplain.offset]

end Select

/-! ### Records and frames -/

/-- Records that stand for combinations are kept if their combinations are. -/
theorem Query.keep_covers {R : Combination → Record → Prop} {ps : List Predicate}
    {P : Combination → Bool}
    (hall : ∀ combination r, R combination r → Predicate.all r ps = .ok (P combination))
    {found : List Combination} {records : List Record} (h : List.Forall₂ R found records) :
    ∃ kept, Query.keep ps none records = (kept, none) ∧ List.Forall₂ R (found.filter P) kept := by
  induction h with
  | nil => exact ⟨[], rfl, .nil⟩
  | @cons combination r found records hr _ ih =>
    obtain ⟨kept, hkept, hfound⟩ := ih
    simp only [Query.keep, hall combination r hr, hkept]
    cases hP : P combination with
    | true =>
      rw [List.filter_cons_of_pos hP]
      exact ⟨_, rfl, .cons hr hfound⟩
    | false =>
      rw [List.filter_cons_of_neg (by rw [hP]; exact Bool.false_ne_true)]
      exact ⟨_, rfl, hfound⟩

theorem mapRecords_covers {α : Type} {R : Combination → Record → Prop}
    {f : Record → Except Fault α} {g : Combination → α}
    (hf : ∀ combination r, R combination r → f r = .ok (g combination))
    {found : List Combination} {records : List Record} (h : List.Forall₂ R found records) :
    mapRecords f none records = (found.map g, none) := by
  induction h with
  | nil => rfl
  | @cons combination r found records hr _ ih =>
    simp only [mapRecords, hf combination r hr, ih]
    rfl

/-- A header, rows and the end of the rows make up one reply. -/
theorem Collector.collect_rows (header : List String) (rows : List (List String)) :
    Collector.collect (.header header :: rows.map Frame.row ++ [.done]) = [.rows header rows] := by
  have hpush : ∀ (rows before : List (List String)),
      (rows.map Frame.row).foldl take ⟨[], some (header, before)⟩ =
        ⟨[], some (header, before ++ rows)⟩ := by
    intro rows
    induction rows with
    | nil => intro before; simp
    | cons row rest ih =>
      intro before
      have hstep : take ⟨[], some (header, before)⟩ (.row row) =
          ⟨[], some (header, before ++ [row])⟩ := rfl
      rw [List.map_cons, List.foldl_cons, hstep, ih, List.append_assoc]
      rfl
  have hheader : take {} (.header header) = ⟨[], some (header, [])⟩ := rfl
  rw [Collector.collect, List.cons_append, List.foldl_cons, hheader, List.foldl_append, hpush]
  rfl

/-! ## Top theorem -/

namespace Select

/-- The ON equalities that were met early are those that are met in the end. -/
theorem joined_plan {c : Catalog} {s : Select} (h : s.Sound c) :
    joined (s.sources c) (s.plan c) [] =
      (combinations (s.sources c)).filter fun combination =>
        s.joins.all (·.meets (s.sources c) combination) := by
  have hfst : (s.plan c).map (·.1) = s.sources c := by
    simp [plan, sources, Function.comp_def]
  rw [joined_eq_filter, hfst]
  · have hcrossed : (s.tables.eraseDups.all fun _ => true) = true :=
      List.all_eq_true.2 fun _ _ => rfl
    simp [plan, steps, admitted, Function.comp_def, hcrossed]
  · intro n src j hn
    rw [plan, List.getElem?_map, Option.map_eq_some_iff] at hn
    obtain ⟨⟨name, on⟩, hstep, heq⟩ := hn
    obtain rfl : on = some j := congrArg Prod.snd heq
    obtain ⟨k, rfl, hj⟩ := steps_getElem? hstep
    rw [List.length_nil, Nat.zero_add]
    exact (h.pairs k j hj).within

/-- A SELECT that is sound and plain answers with exactly the combinations of rows that meet every
ON equality and every condition, in the order of nested loops. -/
theorem execute_eq_answer {c : Catalog} {s : Select} (hc : c.Even) (hplain : s.Plain)
    (h : s.Sound c) (times : Times) :
    (Statement.select s).execute times c = ⟨c, s.answerFrames (times 0) c, none⟩ ∧
      Collector.collect (s.answerFrames (times 0) c) =
        [.rows (s.header c) (s.answerRows (times 0) c)] := by
  obtain ⟨q, hq, hasks⟩ := h.bind_asks hplain hc (times 0)
  obtain ⟨keys, hanswer, hreads⟩ := hasks.answer
  obtain ⟨records, hrun, hrecords⟩ := Scan.run_eq (h.distinct hc) (h.even hc) hasks.serving
    hasks.base
  rw [joined_plan h] at hrecords
  -- every combination that is found is whole
  have hwhole : List.Forall₂ (fun combination r => Combination.Whole (s.sources c) combination ∧
      Agrees (s.sources c) combination r) _ records :=
    (List.forall₂_and_left _ _).2 ⟨fun combination hmem =>
      whole_of_mem_combinations (h.even hc) (List.mem_filter.1 hmem).1, hrecords⟩
  obtain ⟨kept, hkept, hselected⟩ := Query.keep_covers
    (fun combination r hr => hasks.predicates combination r hr.1 hr.2) hwhole
  have hproject : ∀ combination r, Combination.Whole (s.sources c) combination ∧
      Agrees (s.sources c) combination r →
      Layout.project ⟨s.header c, keys, []⟩ r = .ok ([], s.cells c combination) := by
    intro combination r hr
    rw [Layout.project, Layout.values_of_reads (hreads combination r hr.1 hr.2)]
    rfl
  have hframes : q.frames = (s.answerFrames (times 0) c, none) := by
    simp only [Query.frames, Query.records, hrun, hkept, hanswer, hasks.stages, Answer.frames,
      Stage.passAll_nil, mapRecords_covers hproject hselected]
    simp [answerFrames, answerRows, selected, List.filter_filter, Function.comp_def, Bool.and_comm]
  refine ⟨?_, Collector.collect_rows _ _⟩
  show Select.execute (times 0) s c = _
  unfold Select.execute
  rw [hq]
  simp only [hframes]

end Select

/-- A join whose ON equality is written backwards: the second row of `b` pairs with the second of
`a`, and the third is left out by the condition. -/
theorem execute_eq_answer_of_join :
    let c := Catalog.after
      [(fun _ => "", .createTable ⟨"a", false, [⟨"id", "text", false, []⟩], []⟩),
        (fun _ => "", .createTable
          ⟨"b", false, [⟨"a_id", "text", false, []⟩, ⟨"val", "text", false, []⟩], []⟩),
        (fun _ => "", .insert ⟨"a", ["id"], [[⟨.string, "1"⟩], [⟨.string, "2"⟩]], none⟩),
        (fun _ => "", .insert ⟨"b", ["a_id", "val"], [[⟨.string, "1"⟩, ⟨.string, "x"⟩],
          [⟨.string, "2"⟩, ⟨.string, "y"⟩], [⟨.string, "2"⟩, ⟨.string, "z"⟩]], none⟩)]
    let s : Select := ⟨none, [.column ⟨some "a", "id"⟩, .column ⟨none, "val"⟩], ["a"],
      [⟨"b", ⟨some "b", "a_id"⟩, ⟨some "a", "id"⟩⟩],
      [.compare ⟨none, "val"⟩ .ne ⟨.string, "z"⟩], [], none, none, false⟩
    (Statement.select s).execute (fun _ => "") c =
      ⟨c, [.header ["id", "val"], .row ["1", "x"], .row ["2", "y"], .done], none⟩ := by
  intro c s
  have hplain : s.Plain := ⟨rfl, by decide, rfl, rfl, rfl⟩
  have hsound : s.Sound c := by
    refine ⟨by decide, by decide +kernel, by decide +kernel, by decide, by decide, ?_, ?_⟩
    · intro ref href
      rcases List.mem_cons.1 href with rfl | href
      · exact ⟨"b.val", by decide +kernel⟩
      rcases List.mem_cons.1 href with rfl | href
      · exact ⟨"a.id", by decide +kernel⟩
      · obtain rfl := List.mem_singleton.1 href
        exact ⟨"b.val", by decide +kernel⟩
    · intro n j hj
      cases n with
      | zero =>
        obtain rfl := Option.some.inj hj
        exact ⟨⟨some "b", "a_id"⟩, ⟨some "a", "id"⟩, 0, 0, 0, .inl ⟨rfl, rfl⟩, by decide +kernel,
          by decide +kernel, by decide⟩
      | succ n => cases hj
  have hanswer := (Select.execute_eq_answer (Catalog.Reachable.after _).even hplain hsound
    fun _ => "").1
  have hframes : s.answerFrames "" c =
      [.header ["id", "val"], .row ["1", "x"], .row ["2", "y"], .done] := by
    decide +kernel
  rwa [hframes] at hanswer

end Tabula
