import Tabula.Proofs.Batches
import Tabula.Proofs.Selection

/-!
# DISTINCT, OFFSET and LIMIT of a SELECT

A SELECT is bound and answered as if it had no DISTINCT, OFFSET and LIMIT, and the answer then passes
its stages.

* `Answer.frames_shape`: an answer that ends without a fault is a header and rows as wide as it.
* `Select.execute_eq_bare`: what becomes of a SELECT, said of the one without stages.
* `Catalog.Written.execute_stages`: the rows of a SELECT are those of the one without stages that are
  not met before, from the offset on and up to the limit, and pages make up the whole.
-/

namespace Tabula

/-! ## Algorithm -/

/-- A SELECT without DISTINCT, OFFSET and LIMIT.  Columns that are compared are still projected
first. -/
def Select.bare (s : Select) : Select :=
  { s with distinct := none, limit := none, offset := none }

/-- The names of the columns of an answer. -/
def Answer.header : Answer → List String
  | .cells l => l.header
  | .count t => [t.header]

/-- Every cell of an answer has a name. -/
def Answer.Even : Answer → Prop
  | .cells l => l.keys.length = l.header.length
  | .count _ => True

/-- The frames of an answer before they pass the stages, and the fault that ended it. -/
def Query.written (q : Query) : List Frame × Option Fault :=
  q.answer.frames q.records.1 q.records.2

/-! ## The shape of an answer -/

theorem Layout.values_length {r : Record} (keys : List String) :
    ∀ {vs : List Value}, values r keys = .ok vs → vs.length = keys.length := by
  induction keys with
  | nil => intro vs h; rw [← Except.ok.inj h]; rfl
  | cons key rest ih =>
    intro vs h
    simp only [values, bind_eq_ok, pure_eq_ok] at h
    obtain ⟨v, -, others, hothers, rfl⟩ := h
    rw [List.length_cons, ih hothers, List.length_cons]

theorem Layout.project_length {l : Layout} {r : Record} {shown : List Value × List String}
    (h : l.project r = .ok shown) : shown.2.length = l.keys.length := by
  simp only [project, bind_eq_ok, pure_eq_ok] at h
  obtain ⟨cells, hcells, sort, -, rfl⟩ := h
  rw [List.length_map, values_length _ hcells]

/-- What a function made of records it made of one of them each. -/
theorem mem_mapRecords {α : Type} {f : Record → Except Fault α} {ended fault : Option Fault}
    (records : List Record) :
    ∀ {xs : List α}, mapRecords f ended records = (xs, fault) → ∀ x ∈ xs, ∃ r, f r = .ok x := by
  induction records with
  | nil =>
    intro xs h x hx
    obtain ⟨rfl, -⟩ := Prod.mk.inj h
    cases hx
  | cons r rest ih =>
    intro xs h x hx
    unfold mapRecords at h
    cases hr : f r with
    | error f' =>
      rw [hr] at h
      obtain ⟨rfl, -⟩ := Prod.mk.inj h
      cases hx
    | ok first =>
      rw [hr] at h
      obtain ⟨rfl, hfault⟩ := Prod.mk.inj h
      rcases List.mem_cons.1 hx with rfl | hx
      · exact ⟨r, hr⟩
      · exact ih (Prod.ext rfl hfault) x hx

/-- An answer that ends without a fault is a header, rows as wide as it, and the end of the rows. -/
theorem Answer.frames_shape {a : Answer} (ha : a.Even) {records : List Record}
    {ended : Option Fault} {frames : List Frame} (h : a.frames records ended = (frames, none)) :
    ∃ rows : List (List String), frames = .header a.header :: rows.map .row ++ [.done] ∧
      ∀ row ∈ rows, row.length = a.header.length := by
  cases a with
  | cells l =>
    obtain ⟨⟨found, fault⟩, hfound⟩ : ∃ p, mapRecords l.project ended records = p := ⟨_, rfl⟩
    have hwidth : ∀ shown ∈ found, shown.2.length = l.header.length := by
      intro shown hshown
      obtain ⟨r, hr⟩ := mem_mapRecords records hfound shown hshown
      exact (Layout.project_length hr).trans ha
    simp only [Answer.frames, hfound] at h
    obtain ⟨rfl, rfl⟩ := Prod.mk.inj h
    by_cases hsort : l.sort.isEmpty
    · refine ⟨found.map (·.2), ?_, ?_⟩
      · simp [hsort, Answer.header]
      · intro row hrow
        obtain ⟨shown, hshown, rfl⟩ := List.mem_map.1 hrow
        exact hwidth shown hshown
    · refine ⟨l.sorted found, ?_, ?_⟩
      · simp [hsort, Answer.header]
      · intro row hrow
        obtain ⟨shown, hshown, rfl⟩ := List.mem_map.1 hrow
        exact hwidth shown (List.mem_mergeSort.1 hshown)
  | count t =>
    obtain ⟨⟨counted, fault⟩, hcounted⟩ : ∃ p, mapRecords t.counts ended records = p := ⟨_, rfl⟩
    simp only [Answer.frames, hcounted] at h
    obtain ⟨rfl, rfl⟩ := Prod.mk.inj h
    refine ⟨[[toString (counted.count true)]], rfl, ?_⟩
    intro row hrow
    rw [List.mem_singleton.1 hrow]
    rfl

/-! ## Binding -/

/-- Projections on tables that have columns are of some columns. -/
theorem Layout.allColumns_ne_nil {s : Scope} (hs : s.allColumns ≠ []) {projections : List Projection}
    (hne : projections ≠ []) {found : List (String × String)}
    (h : Layout.allColumns s projections = .ok found) : found ≠ [] := by
  cases projections with
  | nil => exact absurd rfl hne
  | cons p rest =>
    simp only [Layout.allColumns, bind_eq_ok, pure_eq_ok] at h
    obtain ⟨first, hfirst, others, -, rfl⟩ := h
    have hsome : first ≠ [] := by
      cases p with
      | star =>
        obtain rfl := Except.ok.inj hfirst
        exact hs
      | column c =>
        simp only [columns, bind_eq_ok, pure_eq_ok] at hfirst
        obtain ⟨key, -, rfl⟩ := hfirst
        exact List.cons_ne_nil _ _
      | count arg => cases hfirst
    exact List.append_ne_nil_of_left_ne_nil hsome others

/-- An answer has a name for every cell, and at least one cell. -/
theorem Answer.bind_eq_ok {projections : List Projection} {orderBy : List SortKey} {s : Scope}
    {a : Answer} (hs : s.allColumns ≠ []) (hne : projections ≠ [])
    (h : Answer.bind projections orderBy s = .ok a) : a.Even ∧ 0 < a.header.length := by
  rcases Answer.bind_cases h with ⟨_, t, -, -, rfl⟩ | ⟨found, sort, hfound, -, rfl⟩
  · exact ⟨trivial, Nat.one_pos⟩
  · have hfound' := Layout.allColumns_ne_nil hs hne hfound
    refine ⟨?_, ?_⟩
    · simp [Answer.Even]
    · simpa [Answer.header, List.length_pos_iff] using hfound'

/-- A SELECT on tables that have columns has an answer that has columns. -/
theorem Select.bind_answer {c : Catalog} (hc : c.Written) {s : Select} {now : String} {q : Query}
    (hne : s.projections ≠ []) (h : s.bind now c = .ok q) :
    q.answer.Even ∧ 0 < q.answer.header.length := by
  obtain ⟨_, _, _, _, _, hfinds, -, hanswer, rfl⟩ := Select.bind_iff.1 h
  cases hfinds with
  | @intro first rest tables base crossed joined hnames htables hbase hcrossed hjoined =>
    obtain ⟨hlisted, hcolumns⟩ := tableColumns_eq_ok _ htables
    have hnodup : (tables.map (·.1)).Nodup := by
      rw [hlisted, ← hnames]
      exact nodup_eraseDups _
    rw [Scope.ofList_of_nodup hnodup] at hanswer
    refine Answer.bind_eq_ok ?_ hne hanswer
    -- the first table has a column
    cases tables with
    | nil => cases hlisted
    | cons entry others =>
      obtain ⟨r, hr, hentry⟩ := hcolumns entry List.mem_cons_self
      have hsome : entry.2 ≠ [] := hentry ▸ hc.columns hr
      rw [Scope.allColumns, List.flatMap_cons]
      refine List.append_ne_nil_of_left_ne_nil ?_ _
      simpa using hsome

/-- Stages are set after everything is bound. -/
theorem Select.bind_eq_bare (now : String) (c : Catalog) (s : Select) :
    s.bind now c = (fun q : Query => { q with stages := s.stages }) <$> s.bare.bind now c := by
  have hnames : s.bare.tableNames = s.tableNames := rfl
  unfold Select.bind
  rw [hnames]
  cases s.tableNames with
  | nil => rfl
  | cons first rest =>
    simp only [map_bind, map_pure]
    rfl

/-- What a SELECT answers is what the one without stages answers, passed through its stages. -/
theorem Select.execute_eq_bare (times : Times) (c : Catalog) (s : Select) :
    (Statement.select s).execute times c =
      match s.bare.bind (times 0) c with
      | .error f => ⟨c, [], some f⟩
      | .ok q => ⟨c, Stage.passAll s.stages q.written.1, q.written.2⟩ := by
  show Select.execute (times 0) s c = _
  unfold Select.execute
  rw [bind_eq_bare]
  cases s.bare.bind (times 0) c with
  | error f => rfl
  | ok q => rfl

/-- A SELECT passes the rows of the one without stages through its stages. -/
theorem Select.execute_of_rows {c : Catalog} {s : Select} {times : Times} {q : Query}
    (hbind : s.bare.bind (times 0) c = .ok q) {header : List String} {rows : List (List String)}
    (hwritten : q.written = (.header header :: rows.map .row ++ [.done], none))
    (hwidths : ∀ row ∈ rows, row.length = header.length) (hheader : 0 < header.length)
    (hkeys : ∀ keys, s.distinct = some (.on keys) → keys ≠ []) :
    (Statement.select s).execute times c =
      .ofRows c (s.shown header) (s.window (s.deduped rows)) := by
  rw [execute_eq_bare, hbind]
  dsimp only
  rw [hwritten, passAll_stages hwidths hheader hkeys]
  rfl

/-- Every SELECT that differs from a given one in DISTINCT, OFFSET and LIMIT only ends with the same
fault, or passes the same rows, as wide as the same header, through its own stages. -/
theorem Select.execute_of_bare {c : Catalog} (hc : c.Written) {s : Select}
    (hne : s.projections ≠ []) (times : Times) :
    (∃ f, ∀ s' : Select, s'.bare = s.bare →
        ((Statement.select s').execute times c).fault = some f) ∨
      ∃ (header : List String) (rows : List (List String)), ∀ s' : Select, s'.bare = s.bare →
        (∀ keys, s'.distinct = some (.on keys) → keys ≠ []) →
        (Statement.select s').execute times c =
          .ofRows c (s'.shown header) (s'.window (s'.deduped rows)) := by
  cases hbind : s.bare.bind (times 0) c with
  | error f =>
    refine Or.inl ⟨f, fun s' hsame => ?_⟩
    rw [execute_eq_bare, hsame, hbind]
  | ok q =>
    obtain ⟨⟨frames, fault⟩, hwritten⟩ : ∃ p, q.written = p := ⟨_, rfl⟩
    cases fault with
    | some f =>
      refine Or.inl ⟨f, fun s' hsame => ?_⟩
      rw [execute_eq_bare, hsame, hbind]
      exact congrArg Prod.snd hwritten
    | none =>
      obtain ⟨heven, hpos⟩ := bind_answer hc (s := s.bare) hne hbind
      obtain ⟨rows, rfl, hwidths⟩ := Answer.frames_shape heven hwritten
      exact Or.inr ⟨q.answer.header, rows, fun s' hsame hkeys =>
        execute_of_rows (hsame ▸ hbind) hwritten hwidths hpos hkeys⟩

/-! ## Top theorem -/

theorem Select.Readable.projections_ne_nil {s : Select} (h : s.Readable) : s.projections ≠ [] := by
  intro hempty
  apply h.projections
  unfold Select.ownProjections
  rw [hempty]
  split
  · exact List.drop_nil
  · rfl

/-- Of a SELECT and the one without DISTINCT, OFFSET and LIMIT: both fail with the same fault, or the
rows of the SELECT are those of the other that are not met before, from the offset on and up to the
limit.  Then pages of any size, one after the other, make up all rows that are not met before. -/
theorem Catalog.Written.execute_stages {c : Catalog} (hc : c.Written) {s : Select}
    (hs : s.Readable) (times : Times) :
    (∃ f, ((Statement.select s.bare).execute times c).fault = some f ∧
        ((Statement.select s).execute times c).fault = some f) ∨
      ∃ (header : List String) (rows : List (List String)),
        (Statement.select s.bare).execute times c = .ofRows c header rows ∧
        (Statement.select s).execute times c =
          .ofRows c (s.shown header) (s.window (s.deduped rows)) ∧
        ∀ size count, (s.deduped rows).length ≤ size * count →
          ∃ pages : List (List (List String)), pages.length = count ∧
            pages.flatten = s.deduped rows ∧
            ∀ i page, pages[i]? = some page →
              (Statement.select { s with limit := some size, offset := some (size * i) }).execute
                times c = .ofRows c (s.shown header) page := by
  have hkeys : ∀ keys, s.distinct = some (.on keys) → keys ≠ [] := fun keys hon =>
    (hs.distinct keys hon).1
  rcases Select.execute_of_bare hc hs.projections_ne_nil times with
    ⟨f, hfault⟩ | ⟨header, rows, hanswer⟩
  · exact Or.inl ⟨f, hfault s.bare rfl, hfault s rfl⟩
  · refine Or.inr ⟨header, rows, ?_, hanswer s rfl hkeys, fun size count hreach => ?_⟩
    · exact hanswer s.bare rfl fun keys hon => by cases hon
    · refine ⟨(List.range count).map fun i => ((s.deduped rows).drop (size * i)).take size, ?_, ?_,
        fun i page hpage => ?_⟩
      · rw [List.length_map, List.length_range]
      · rw [Select.flatten_pages, List.take_of_length_le hreach]
      · rw [List.getElem?_map, Option.map_eq_some_iff] at hpage
        obtain ⟨j, hj, rfl⟩ := hpage
        obtain rfl : i = j := by
          have := (List.getElem?_eq_some_iff.1 hj).2
          rwa [List.getElem_range] at this
        exact hanswer { s with limit := some size, offset := some (size * i) } rfl hkeys

/-- Of four rows three are met first with their key, the second page of one row is asked for, and the
key is not shown. -/
theorem execute_stages_of_distinct_on :
    let c := (({} : Catalog).runBatch (fun _ _ => "") "CREATE TABLE t (a TEXT, b TEXT);
      INSERT INTO t (a, b) VALUES ('x', '1'), ('y', '2'), ('x', '3'), ('z', '4')").catalog
    let s : Select := ⟨some (.on [⟨none, "a"⟩]), [.column ⟨none, "a"⟩, .column ⟨none, "b"⟩], ["t"],
      [], [.always], [], some 1, some 1, false⟩
    Statement.parse "SELECT DISTINCT ON (a) b FROM t LIMIT 1 OFFSET 1" = .ok [.select s] ∧
      ∃ header rows,
        (Statement.select s.bare).execute (fun _ => "") c = .ofRows c header rows ∧
        (Statement.select s).execute (fun _ => "") c =
          .ofRows c (s.shown header) (s.window (s.deduped rows)) ∧
        s.shown header = ["b"] ∧ s.window (s.deduped rows) = [["2"]] := by
  intro c s
  have hparse : Statement.parse "SELECT DISTINCT ON (a) b FROM t LIMIT 1 OFFSET 1" =
      .ok [.select s] := by decide +kernel
  have hwritten : c.Written := Catalog.Written.new.runBatch
  have hs : s.Readable := Statement.parse_readable hparse _ (List.mem_singleton_self _)
  have hrun : (Statement.select s).execute (fun _ => "") c = .ofRows c ["b"] [["2"]] := by
    decide +kernel
  clear_value c
  rcases hwritten.execute_stages hs (fun _ => "") with
    ⟨f, -, hfault⟩ | ⟨header, rows, hbare, hexecute, -⟩
  · rw [hrun] at hfault
    cases hfault
  · refine ⟨hparse, header, rows, hbare, hexecute, ?_⟩
    obtain ⟨-, hframes, -⟩ := Outcome.mk.inj (hrun.symm.trans hexecute)
    obtain ⟨hheader, hrows⟩ := List.cons.inj hframes
    refine ⟨(Frame.header.inj hheader).symm, ?_⟩
    have hrows : (s.window (s.deduped rows)).map Frame.row ++ [.done] =
        [["2"]].map Frame.row ++ [.done] := hrows.symm
    exact List.map_injective_iff.2 (fun _ _ => Frame.row.inj) (List.append_cancel_right hrows)

end Tabula
