import Mathlib.Data.List.Perm.Basic
import Tabula.Proofs.Confusion
import Tabula.Proofs.Origins
import Tabula.Proofs.Paging

/-!
# Which rows DISTINCT suppresses

DISTINCT compares rows by the canonical strings of their cells, so of two rows it suppresses the
later one where these are the same in all compared columns.  The values behind them are the same
then, or are two that a column confuses: a null and the text `null`, say.

* `eraseDupsBy_map`, `eraseDupsBy_earlier`: what is left of a list, and why the rest is not.
* `Answer.cells_frames`: the rows of an answer come from records.
* `Select.mem_compared`: DISTINCT ON compares the columns that it names.
* `Catalog.Written.suppressed_alike`: what a suppressed row has in common with an earlier one.
-/

namespace Tabula

/-! ## Algorithm -/

/-- The canonical string that a record has under a key. -/
def Record.cell (r : Record) (key : String) : String :=
  ((r.get? key).map (·.canonical)).getD ""

/-- What a record is shown as. -/
def Layout.cells (l : Layout) (r : Record) : List String :=
  l.keys.map r.cell

namespace Select

/-- The columns in which rows are compared, of all that are projected. -/
def compared {α : Type} (s : Select) (columns : List α) : List α :=
  match s.distinct with
  | some (.on refs) => columns.take refs.length
  | _ => columns

/-- The records, each with its place, that are like none before them in the columns in which rows
are compared. -/
def kept (s : Select) (l : Layout) (selected : List Record) : List (Record × Nat) :=
  selected.zipIdx.eraseDupsBy fun x y => s.compared (l.cells x.1) == s.compared (l.cells y.1)

/-- Rows are compared under a key: that of any projected column, or that of a column which DISTINCT
ON names. -/
def Compares (c : Catalog) (s : Select) (l : Layout) (key : String) : Prop :=
  match s.distinct with
  | none => False
  | some .all => key ∈ l.keys
  | some (.on refs) => ∃ ref ∈ refs, ∃ tables, tableColumns c s.tableNames = .ok tables ∧
      (Scope.ofList tables).resolve ref = .ok key

end Select

/-- Two values are shown alike under a key: they are one value, or a column of the key confuses
them. -/
def Catalog.ShownAlike (c : Catalog) (key : String) (v w : Value) : Prop :=
  v = w ∨ ∃ a, c.HasColumn key a ∧ (a.Confuses v w ∨ a.Confuses w v)

/-- What a SELECT with DISTINCT that succeeds does.  A count is shown.  Of the records that are
selected, in the order in which the SELECT without stages shows them, some are kept, and each that
is not has a kept one before it, so that under every key that is compared both hold values which are
related. -/
def Select.SuppressesBy (related : String → Value → Value → Prop) (times : Times) (c : Catalog)
    (s : Select) : Prop :=
  ∃ q, s.bind (times 0) c = .ok q ∧
    ((∃ t n, q.answer = .count t ∧
        (Statement.select s).execute times c = .ofRows c [t.header] (s.window [[n]])) ∨
      ∃ (l : Layout) (selected : List Record) (kept : List (Record × Nat)),
        q.answer = .cells l ∧ selected.Perm q.records.1 ∧
        (Statement.select s.bare).execute times c = .ofRows c l.header (selected.map l.cells) ∧
        kept.Sublist selected.zipIdx ∧
        (Statement.select s).execute times c =
          .ofRows c (s.shown l.header) (s.window (kept.map fun x => s.shown (l.cells x.1))) ∧
        ∀ later ∈ selected.zipIdx, later ∉ kept → ∃ earlier ∈ kept, earlier.2 < later.2 ∧
          ∀ key, s.Compares c l key → ∃ v w, later.1.get? key = some v ∧
            earlier.1.get? key = some w ∧ related key v w)

/-! ## Lemmas -/

/-! ### Lists without what is like something earlier -/

section Lists

variable {α β : Type}

theorem eraseDupsBy_sublist (r : α → α → Bool) (xs : List α) : (xs.eraseDupsBy r).Sublist xs := by
  match xs with
  | [] => exact .slnil
  | x :: rest =>
    rw [List.eraseDupsBy_cons]
    exact ((eraseDupsBy_sublist r _).trans List.filter_sublist).cons_cons x
termination_by xs.length
decreasing_by exact Nat.lt_succ_of_le (List.length_filter_le _ _)

theorem eraseDupsBy_map (r : β → β → Bool) (f : α → β) (xs : List α) :
    (xs.map f).eraseDupsBy r = (xs.eraseDupsBy fun a b => r (f a) (f b)).map f := by
  match xs with
  | [] => rfl
  | x :: rest =>
    rw [List.map_cons, List.eraseDupsBy_cons, List.eraseDupsBy_cons, List.map_cons, List.filter_map,
      eraseDupsBy_map r f]
    rfl
termination_by xs.length
decreasing_by exact Nat.lt_succ_of_le (List.length_filter_le _ _)

/-- What is not left is like something earlier that is. -/
theorem eraseDupsBy_earlier {r : α → α → Bool} {before : α → α → Prop} {xs : List α}
    (hxs : xs.Pairwise before) {x : α} (hx : x ∈ xs) :
    x ∈ xs.eraseDupsBy r ∨ ∃ y ∈ xs.eraseDupsBy r, before y x ∧ r x y = true := by
  match xs with
  | [] => cases hx
  | first :: rest =>
    rw [List.eraseDupsBy_cons]
    obtain ⟨hfirst, hrest⟩ := List.pairwise_cons.1 hxs
    rcases List.mem_cons.1 hx with rfl | hx
    · exact .inl List.mem_cons_self
    · cases halike : r x first with
      | true => exact .inr ⟨first, List.mem_cons_self, hfirst x hx, halike⟩
      | false =>
        have hmem : x ∈ rest.filter fun y => r y first = false :=
          List.mem_filter.2 ⟨hx, decide_eq_true halike⟩
        rcases eraseDupsBy_earlier (r := r) (hrest.filter _) hmem with hleft | ⟨y, hy, hbefore⟩
        · exact .inl (List.mem_cons_of_mem first hleft)
        · exact .inr ⟨y, List.mem_cons_of_mem first hy, hbefore⟩
termination_by xs.length
decreasing_by exact Nat.lt_succ_of_le (List.length_filter_le _ _)

theorem pairwise_zipIdx (xs : List α) : xs.zipIdx.Pairwise fun a b => a.2 < b.2 := by
  rw [← List.pairwise_map (f := Prod.snd) (R := (· < ·)), List.zipIdx_map_snd]
  exact List.pairwise_lt_range'

end Lists

/-! ### Rows of records -/

theorem Record.cell_of_get? {r : Record} {key : String} {v : Value} (h : r.get? key = some v) :
    r.cell key = v.canonical := by
  rw [cell, h]
  rfl

theorem Record.get?_of_get {r : Record} {key : String} {v : Value} (h : r.get key = .ok v) :
    r.get? key = some v := by
  unfold get at h
  split at h
  · next w hw =>
    obtain rfl := Except.ok.inj h
    exact hw
  · cases h

theorem Layout.values_cells {r : Record} (keys : List String) :
    ∀ {vs : List Value}, values r keys = .ok vs → vs.map (·.canonical) = keys.map r.cell := by
  induction keys with
  | nil => intro vs h; rw [← Except.ok.inj h]; rfl
  | cons key rest ih =>
    intro vs h
    simp only [values, bind_eq_ok, pure_eq_ok] at h
    obtain ⟨v, hv, others, hothers, rfl⟩ := h
    rw [List.map_cons, List.map_cons, ih hothers, Record.cell_of_get? (Record.get?_of_get hv)]

theorem Layout.project_cells {l : Layout} {r : Record} {row : List Value × List String}
    (h : l.project r = .ok row) : row.2 = l.cells r := by
  simp only [project, bind_eq_ok, pure_eq_ok] at h
  obtain ⟨cells, hcells, sort, -, rfl⟩ := h
  exact values_cells l.keys hcells

theorem mapRecords_eq_ok {α : Type} {f : Record → Except Fault α} {ended : Option Fault}
    {records : List Record} :
    ∀ {xs : List α}, mapRecords f ended records = (xs, none) →
      List.Forall₂ (fun x r => f r = .ok x) xs records := by
  induction records with
  | nil =>
    intro xs h
    obtain ⟨rfl, -⟩ := Prod.mk.inj h
    exact .nil
  | cons r rest ih =>
    intro xs h
    unfold mapRecords at h
    cases hr : f r with
    | error f' =>
      rw [hr] at h
      cases h
    | ok first =>
      rw [hr] at h
      obtain ⟨rfl, hfault⟩ := Prod.mk.inj h
      exact .cons hr (ih (Prod.ext rfl hfault))

/-- An answer with cells that ends without a fault shows every record once. -/
theorem Answer.cells_frames {l : Layout} {records : List Record} {ended : Option Fault}
    {frames : List Frame} (h : (Answer.cells l).frames records ended = (frames, none)) :
    ∃ selected : List Record, selected.Perm records ∧
      frames = .header l.header :: (selected.map l.cells).map .row ++ [.done] := by
  obtain ⟨⟨found, fault⟩, hfound⟩ : ∃ p, mapRecords l.project ended records = p := ⟨_, rfl⟩
  simp only [Answer.frames, hfound] at h
  obtain ⟨rfl, rfl⟩ := Prod.mk.inj h
  have hcells {found : List (List Value × List String)} {records : List Record}
      (h : List.Forall₂ (fun row r => l.project r = .ok row) found records) :
      found.map (·.2) = records.map l.cells := by
    rw [← List.forall₂_eq_eq_eq, List.forall₂_map_left_iff, List.forall₂_map_right_iff]
    exact h.imp fun _ _ => Layout.project_cells
  by_cases hsort : l.sort.isEmpty
  · refine ⟨records, .refl _, ?_⟩
    rw [if_pos hsort, ← hcells (mapRecords_eq_ok hfound), List.map_map]
    rfl
  · -- rows that are sorted take their records with them
    obtain ⟨selected, hselected, hperm⟩ := List.perm_comp_forall₂
      (List.mergeSort_perm found l.precedes) (mapRecords_eq_ok hfound)
    refine ⟨selected, hperm, ?_⟩
    rw [if_neg hsort, ← hcells hselected]
    rfl

/-- A count that ends without a fault has tested every record. -/
theorem Answer.tally_frames {t : Tally} {records : List Record} {ended : Option Fault}
    {frames : List Frame} (h : (Answer.count t).frames records ended = (frames, none)) :
    ∃ counted, List.Forall₂ (fun x r => t.counts r = .ok x) counted records ∧
      frames = .header [t.header] :: [[toString (counted.count true)]].map .row ++ [.done] := by
  obtain ⟨⟨counted, fault⟩, hcounted⟩ : ∃ p, mapRecords t.counts ended records = p := ⟨_, rfl⟩
  simp only [Answer.frames, hcounted] at h
  obtain ⟨rfl, rfl⟩ := Prod.mk.inj h
  exact ⟨counted, mapRecords_eq_ok hcounted, rfl⟩

theorem Answer.count_frames {t : Tally} {records : List Record} {ended : Option Fault}
    {frames : List Frame} (h : (Answer.count t).frames records ended = (frames, none)) :
    ∃ n, frames = .header [t.header] :: [[n]].map .row ++ [.done] := by
  obtain ⟨counted, -, hframes⟩ := tally_frames h
  exact ⟨_, hframes⟩

/-! ### What is compared -/

namespace Select

/-- The columns that are projected first have their keys first. -/
theorem allColumns_resolve {scope : Scope} {own : List Projection} (refs : List ColumnRef) :
    ∀ {found : List (String × String)},
      Layout.allColumns scope (refs.map .column ++ own) = .ok found →
      ∀ ref ∈ refs, ∀ key, scope.resolve ref = .ok key →
        key ∈ (found.map (·.1)).take refs.length := by
  induction refs with
  | nil => intro found _ ref href; cases href
  | cons first rest ih =>
    intro found h ref href key hkey
    simp only [List.map_cons, List.cons_append, Layout.allColumns, Layout.columns, bind_eq_ok,
      pure_eq_ok] at h
    obtain ⟨_, ⟨found, hfirst, rfl⟩, others, hothers, rfl⟩ := h
    rw [List.map_append, List.length_cons]
    show key ∈ found :: (others.map (·.1)).take rest.length
    rcases List.mem_cons.1 href with rfl | href
    · obtain rfl := Except.ok.inj (hkey.symm.trans hfirst)
      exact List.mem_cons_self
    · exact List.mem_cons_of_mem _ (ih hothers ref href key hkey)

/-- The columns of an answer are looked up among those of the tables that are named. -/
theorem bind_cells {c : Catalog} {s : Select} {now : String} {q : Query}
    (h : s.bind now c = .ok q) {l : Layout} (hl : q.answer = .cells l) :
    ∃ tables found, tableColumns c s.tableNames = .ok tables ∧
      Layout.allColumns (Scope.ofList tables) s.projections = .ok found ∧
      l.keys = found.map (·.1) := by
  obtain ⟨_, _, _, _, answer, hfinds, -, hanswer, rfl⟩ := bind_iff.1 h
  obtain ⟨hnames, htables, -, -, -⟩ := hfinds
  have hnames : s.tableNames = _ := hnames
  rcases Answer.bind_cases hanswer with ⟨_, _, -, -, rfl⟩ | ⟨found, _, hfound, -, rfl⟩
  · cases hl
  · obtain rfl := Answer.cells.inj hl
    exact ⟨_, found, hnames ▸ htables, hfound, rfl⟩

/-- A count stands alone. -/
theorem bind_count {c : Catalog} {s : Select} {now : String} {q : Query}
    (h : s.bind now c = .ok q) {t : Tally} (ht : q.answer = .count t) :
    ∃ arg, s.projections = [.count arg] := by
  obtain ⟨_, _, _, _, answer, -, -, hanswer, rfl⟩ := bind_iff.1 h
  rcases Answer.bind_cases hanswer with ⟨arg, _, harg, -, -⟩ | ⟨_, _, -, -, rfl⟩
  · exact ⟨arg, harg⟩
  · cases ht

/-- Rows that are compared under a key are compared in its column. -/
theorem mem_compared {c : Catalog} {s : Select} (hs : s.Readable) {now : String} {q : Query}
    (h : s.bind now c = .ok q) {l : Layout} (hl : q.answer = .cells l) {key : String}
    (hkey : s.Compares c l key) : key ∈ s.compared l.keys := by
  unfold Compares at hkey
  unfold compared
  cases hdistinct : s.distinct with
  | none =>
    rw [hdistinct] at hkey
    exact hkey.elim
  | some d =>
    rw [hdistinct] at hkey
    cases d with
    | all => exact hkey
    | on refs =>
      obtain ⟨ref, href, tables, htables, hresolve⟩ := hkey
      obtain ⟨tables', found, htables', hfound, hkeys⟩ := bind_cells h hl
      obtain rfl := Except.ok.inj (htables.symm.trans htables')
      rw [(hs.distinct refs hdistinct).2] at hfound
      dsimp only
      rw [hkeys]
      exact allColumns_resolve refs hfound ref href key hresolve

/-- Rows are left out that are like an earlier one in the columns that are compared. -/
theorem deduped_eq {s : Select} {d : Distinct} (h : s.distinct = some d)
    (rows : List (List String)) :
    s.deduped rows = (rows.eraseDupsBy fun a b => s.compared a == s.compared b).map s.shown := by
  unfold deduped compared
  rw [h]
  cases d with
  | all =>
    have hshown : s.shown = id := by
      funext row
      rw [shown, h]
      rfl
    rw [hshown, List.map_id]
    rfl
  | on refs =>
    have hshown : s.shown = (·.drop refs.length) := by
      funext row
      rw [shown, h]
    rw [hshown]

theorem compared_map {α β : Type} (s : Select) (f : α → β) (columns : List α) :
    s.compared (columns.map f) = (s.compared columns).map f := by
  unfold compared
  split
  · rw [List.map_take]
  · rfl

theorem mem_of_mem_compared {α : Type} {s : Select} {columns : List α} {x : α}
    (h : x ∈ s.compared columns) : x ∈ columns := by
  unfold compared at h
  split at h
  · exact List.mem_of_mem_take h
  · exact h

theorem kept_sublist (s : Select) (l : Layout) (selected : List Record) :
    (s.kept l selected).Sublist selected.zipIdx :=
  eraseDupsBy_sublist _ _

/-- The rows that are left are those of the records that are kept. -/
theorem deduped_cells {s : Select} {d : Distinct} (h : s.distinct = some d) (l : Layout)
    (selected : List Record) :
    s.deduped (selected.map l.cells) =
      (s.kept l selected).map fun x => s.shown (l.cells x.1) := by
  have hplaces : selected.map l.cells = selected.zipIdx.map fun x => l.cells x.1 := by
    conv => lhs; rw [← List.zipIdx_map_fst 0 selected, List.map_map]
    rfl
  rw [deduped_eq h, hplaces, eraseDupsBy_map, List.map_map]
  rfl

/-- A record that is not kept has a kept one before it with the same cells in the columns that are
compared. -/
theorem kept_earlier {s : Select} {l : Layout} {selected : List Record} {later : Record × Nat}
    (hlater : later ∈ selected.zipIdx) (hnot : later ∉ s.kept l selected) :
    ∃ earlier ∈ s.kept l selected, earlier.2 < later.2 ∧
      ∀ key ∈ s.compared l.keys, later.1.cell key = earlier.1.cell key := by
  obtain ⟨earlier, hearlier, hlt, halike⟩ :=
    (eraseDupsBy_earlier (pairwise_zipIdx selected) hlater).resolve_left hnot
  have hcells : (s.compared l.keys).map later.1.cell =
      (s.compared l.keys).map earlier.1.cell := by
    rw [← compared_map, ← compared_map]
    exact beq_iff_eq.1 halike
  exact ⟨earlier, hearlier, hlt, List.map_inj_left.1 hcells⟩

/-- What DISTINCT ON compares is no count. -/
theorem distinct_of_count {c : Catalog} {s : Select} (hs : s.Readable) {now : String} {q : Query}
    (h : s.bind now c = .ok q) {t : Tally} (ht : q.answer = .count t) {d : Distinct}
    (hdistinct : s.distinct = some d) : d = .all := by
  obtain ⟨arg, harg⟩ := bind_count h ht
  cases d with
  | all => rfl
  | on refs =>
    obtain ⟨hne, hprojections⟩ := hs.distinct refs hdistinct
    obtain ⟨ref, rest, rfl⟩ := List.exists_cons_of_ne_nil hne
    rw [harg] at hprojections
    cases (List.cons.inj hprojections).1

/-- A SELECT that ends without a fault has a query, whose answer did. -/
theorem written_of_ok {c : Catalog} {s : Select} {times : Times}
    (h : ((Statement.select s).execute times c).fault = none) :
    ∃ q frames, s.bare.bind (times 0) c = .ok q ∧ q.written = (frames, none) := by
  rw [execute_eq_bare] at h
  cases hbind : s.bare.bind (times 0) c with
  | error f =>
    rw [hbind] at h
    cases h
  | ok q =>
    rw [hbind] at h
    exact ⟨q, q.written.1, rfl, Prod.ext rfl h⟩

end Select

/-! ### Records whose rows are alike -/

/-- Records of a query that have one canonical string under a key have values there that are shown
alike. -/
theorem Query.shownAlike_of_cell {c : Catalog} (hc : c.Reachable) {now : String} {s : Select}
    {q : Query} (h : s.bind now c = .ok q) {key : String} (hkey : key ∈ q.answer.keys)
    {r r' : Record} (hr : r ∈ q.records.1) (hr' : r' ∈ q.records.1)
    (hcell : r.cell key = r'.cell key) :
    ∃ v w, r.get? key = some v ∧ r'.get? key = some w ∧ c.ShownAlike key v w := by
  obtain ⟨a, ha, hstores⟩ := records_stored hc h hkey
  obtain ⟨v, hv, hvstores⟩ := hstores r hr
  obtain ⟨w, hw, hwstores⟩ := hstores r' hr'
  rw [Record.cell_of_get? hv, Record.cell_of_get? hw] at hcell
  refine ⟨v, w, hv, hw, ?_⟩
  rcases Column.confuses_of_canonical hvstores hwstores hcell with heq | hconfuses
  · exact .inl heq
  · exact .inr ⟨a, ha, hconfuses⟩

/-! ## Top theorem -/

/-- DISTINCT suppresses a row only if an earlier one, which it does not, holds values that are shown
alike in all columns that are compared: the same ones, or two that a column confuses. -/
theorem Catalog.Written.suppressed_alike {c : Catalog} (hc : c.Written) {s : Select}
    (hs : s.Readable) {d : Distinct} (hdistinct : s.distinct = some d) (times : Times)
    (h : ((Statement.select s).execute times c).fault = none) :
    s.SuppressesBy c.ShownAlike times c := by
  obtain ⟨q, frames, hbare, hwritten⟩ := Select.written_of_ok h
  have hbind : s.bind (times 0) c = .ok { q with stages := s.stages } := by
    rw [Select.bind_eq_bare, hbare]
    rfl
  obtain ⟨heven, hpos⟩ := Select.bind_answer hc (s := s.bare) hs.projections_ne_nil hbare
  have hkeys : ∀ keys, s.distinct = some (.on keys) → keys ≠ [] := fun keys hon =>
    (hs.distinct keys hon).1
  refine ⟨_, hbind, ?_⟩
  cases hanswer : q.answer with
  | count t =>
    rw [Query.written, hanswer] at hwritten
    obtain ⟨n, rfl⟩ := Answer.count_frames hwritten
    rw [← hanswer, ← Query.written] at hwritten
    refine .inl ⟨t, n, rfl, ?_⟩
    rw [Select.execute_of_rows hbare hwritten
        (fun row hrow => by rw [List.mem_singleton.1 hrow]; rfl) Nat.one_pos hkeys,
      Select.deduped, Select.shown, hdistinct, Select.distinct_of_count hs hbind hanswer hdistinct]
    rfl
  | cells l =>
    rw [Query.written, hanswer] at hwritten
    obtain ⟨selected, hperm, rfl⟩ := Answer.cells_frames hwritten
    rw [← hanswer, ← Query.written] at hwritten
    rw [hanswer] at heven hpos
    have hwidths : ∀ row ∈ selected.map l.cells, row.length = l.header.length := by
      intro row hrow
      obtain ⟨r, -, rfl⟩ := List.mem_map.1 hrow
      rw [Layout.cells, List.length_map]
      exact heven
    have hselected {x : Record × Nat} (hx : x ∈ selected.zipIdx) : x.1 ∈ q.records.1 :=
      hperm.mem_iff.1 (List.fst_mem_of_mem_zipIdx hx)
    refine .inr ⟨l, selected, s.kept l selected, rfl, hperm, ?_, s.kept_sublist l selected, ?_,
      fun later hlater hnot => ?_⟩
    · exact Select.execute_of_rows (s := s.bare) hbare hwritten hwidths hpos
        fun keys hon => by cases hon
    · rw [Select.execute_of_rows hbare hwritten hwidths hpos hkeys,
        Select.deduped_cells hdistinct]
    · obtain ⟨earlier, hearlier, hlt, hcells⟩ := Select.kept_earlier hlater hnot
      refine ⟨earlier, hearlier, hlt, fun key hkey => ?_⟩
      have hcompared := Select.mem_compared hs hbind hanswer hkey
      have hasked : key ∈ q.answer.keys := by
        rw [hanswer]
        exact List.mem_append_left _ (Select.mem_of_mem_compared hcompared)
      exact Query.shownAlike_of_cell hc.reachable hbind hasked (hselected hlater)
        (hselected ((s.kept_sublist l selected).subset hearlier)) (hcells key hcompared)

/-- DISTINCT ON suppresses the text `null` after a null, and shows the other columns of the null's
row only. -/
theorem suppressed_alike_of_distinct_on :
    let c := (({} : Catalog).runBatch (fun _ _ => "") "CREATE TABLE t (a TEXT, b TEXT);
      INSERT INTO t (a, b) VALUES (NULL, '1'), ('x', '2'), ('null', '3')").catalog
    let s : Select := ⟨some (.on [⟨none, "a"⟩]), [.column ⟨none, "a"⟩, .column ⟨none, "b"⟩], ["t"],
      [], [.always], [], none, none, false⟩
    Statement.parse "SELECT DISTINCT ON (a) b FROM t" = .ok [.select s] ∧
      (Statement.select s).execute (fun _ => "") c = .ofRows c ["b"] [["1"], ["2"]] ∧
      s.SuppressesBy c.ShownAlike (fun _ => "") c := by
  intro c s
  have hparse : Statement.parse "SELECT DISTINCT ON (a) b FROM t" = .ok [.select s] := by
    decide +kernel
  have hwritten : c.Written := Catalog.Written.new.runBatch
  have hs : s.Readable := Statement.parse_readable hparse _ (List.mem_singleton_self _)
  have hrun : (Statement.select s).execute (fun _ => "") c = .ofRows c ["b"] [["1"], ["2"]] := by
    decide +kernel
  exact ⟨hparse, hrun, hwritten.suppressed_alike hs rfl (fun _ => "") (by rw [hrun]; rfl)⟩

/-- DISTINCT suppresses rows that differ from all that are shown: of a null and the text `null` one
row is left. -/
theorem not_suppressed_by_eq :
    ¬ ∀ (c : Catalog) (s : Select) (d : Distinct) (times : Times), c.Written → s.Readable →
      s.distinct = some d → ((Statement.select s).execute times c).fault = none →
      s.SuppressesBy (fun _ v w => v = w) times c := by
  intro hall
  let c := (({} : Catalog).runBatch (fun _ _ => "")
    "CREATE TABLE t (a TEXT); INSERT INTO t (a) VALUES (NULL), ('null')").catalog
  let s : Select := ⟨some .all, [.column ⟨none, "a"⟩], ["t"], [], [.always], [], none, none, false⟩
  have hparse : Statement.parse "SELECT DISTINCT a FROM t" = .ok [.select s] := by decide +kernel
  have hs : s.Readable := Statement.parse_readable hparse _ (List.mem_singleton_self _)
  have hrun : (Statement.select s).execute (fun _ => "") c = .ofRows c ["a"] [["null"]] := by
    decide +kernel
  have hbind : (s.bind "" c).toOption.map (fun q => (q.answer, q.records.1)) =
      some (.cells ⟨["a"], ["t.a"], []⟩, [⟨[("t.a", .null)]⟩, ⟨[("t.a", .text "null")]⟩]) := by
    decide +kernel
  obtain ⟨q, hq, hcase⟩ := hall c s .all (fun _ => "") Catalog.Written.new.runBatch hs rfl
    (by rw [hrun]; rfl)
  rw [show s.bind ((fun _ => "") 0) c = .ok q from hq] at hbind
  obtain ⟨hanswer, hrecords⟩ := Prod.mk.inj (Option.some.inj hbind)
  rcases hcase with ⟨t, n, ht, -⟩ | ⟨l, selected, kept, hl, hperm, -, hsublist, hexecute, hkept⟩
  · rw [ht] at hanswer
    cases hanswer
  · obtain rfl := Answer.cells.inj (hl.symm.trans hanswer)
    rw [hrecords] at hperm
    -- no record is left out, since no other has its value
    have hnone : ∀ later ∈ selected.zipIdx, later ∈ kept := by
      intro later hlater
      by_contra hnot
      obtain ⟨earlier, hearlier, hlt, hsame⟩ := hkept later hlater hnot
      obtain ⟨v, w, hv, hw, rfl⟩ := hsame "t.a" (List.mem_singleton_self _)
      have hselected := hsublist.subset hearlier
      have heq : later.1 = earlier.1 := by
        have hmem := hperm.mem_iff.1 (List.fst_mem_of_mem_zipIdx hlater)
        have hmem' := hperm.mem_iff.1 (List.fst_mem_of_mem_zipIdx hselected)
        simp only [List.mem_cons, List.not_mem_nil, or_false] at hmem hmem'
        rcases hmem with heq | heq <;> rcases hmem' with heq' | heq' <;>
          rw [heq] at hv ⊢ <;> rw [heq'] at hw ⊢ <;> cases hv <;> cases hw
      have hplace := List.mk_mem_zipIdx_iff_getElem?.1 hlater
      have hplace' := List.mk_mem_zipIdx_iff_getElem?.1 hselected
      have hnodup : selected.Nodup := hperm.nodup_iff.2 (by decide)
      have := (List.getElem?_inj (List.getElem?_eq_some_iff.1 hplace).1 hnodup).1
        (hplace.trans (heq ▸ hplace'.symm))
      omega
    have hone : kept.length = 1 := by
      have hframes := congrArg (·.frames.length) (hrun.symm.trans hexecute)
      simpa [Outcome.ofRows, Select.window, s] using hframes.symm
    obtain ⟨x, rfl⟩ := List.length_eq_one_iff.1 hone
    obtain ⟨a, b, rfl⟩ := List.length_eq_two.1 hperm.length_eq
    have hfirst := List.mem_singleton.1 (hnone (a, 0) List.mem_cons_self)
    have hsecond := List.mem_singleton.1 (hnone (b, 1) (List.mem_cons_of_mem _ List.mem_cons_self))
    cases congrArg Prod.snd (hfirst.trans hsecond.symm)

end Tabula
