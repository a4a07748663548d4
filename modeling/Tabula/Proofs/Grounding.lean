import Tabula.Query
import Tabula.Proofs.Agreement
import Tabula.Proofs.Shape

/-!
# What a query asks of the record that is carried along

A scan fills the record level by level.  An ON equality asks for a key before its own level has
written anything, so the key has to be one that the first table or a level before it writes; where
it is not, the level is stray.  Conditions and answers are asked of complete records only.

* `Scan.descend_complete`, `Scan.run_complete`: without a stray level a scan meets no fault, and its
  records have the keys of all levels.
* `Scan.descend_halts`, `Scan.run_halts`: with one it finds no record, and fails as soon as the
  levels before the stray one find a record and the stray one has a row.
* `Query.run_sound`, `Query.records_eq`: the records of a query, and the fault that ends them.
* `Query.frames_fault`: what that means for the answer of a query.
-/

namespace Tabula

/-! ## Algorithm -/

/-- The keys that a level writes. -/
def Level.keys (l : Level) : List String :=
  l.relation.table.columnNames.map (columnKey l.table)

/-- The key that the ON equality of a level asks for, if it is not there. -/
def Level.missing? (present : List String) (l : Level) : Option String :=
  (l.on.map (·.key)).filter (!present.contains ·)

/-- A level that asks for a key that the levels before it do not write. -/
structure Stray where
  before : List Level
  level : Level
  key : String

/-- The first stray level, given the keys that are there. -/
def stray? (present : List String) : List Level → Option Stray
  | [] => none
  | l :: rest =>
    match l.missing? present with
    | some key => some ⟨[], l, key⟩
    | none => (stray? (present ++ l.keys) rest).map fun x => { x with before := l :: x.before }

namespace Query

/-- The first stray level of a query. -/
def stray? (q : Query) : Option Stray :=
  Tabula.stray? q.base.keys q.levels

/-- Whether a scan gets to a row of a stray level. -/
def reaches (q : Query) (x : Stray) : Bool :=
  !(Scan.run q.base x.before q.base.relation.rows).1.isEmpty && !x.level.relation.rows.isEmpty

/-- The fault of a query whose names have been found: only a stray level makes one. -/
def scanFault (q : Query) : Option Fault :=
  match q.stray? with
  | none => none
  | some x => if q.reaches x then some (.notInRow x.key) else none

/-- The keys of a complete record. -/
def keys (q : Query) : List String :=
  q.base.keys ++ q.levels.flatMap (·.keys)

end Query

/-- The key that a predicate asks for. -/
def Predicate.key? : Predicate → Option String
  | .always => none
  | .test key _ _ => some key

/-- Whether a record can be tested by a predicate and meets it. -/
def Predicate.passes (r : Record) (p : Predicate) : Bool :=
  match p.holds r with
  | .ok hit => hit
  | .error _ => false

/-- The keys that an answer asks for. -/
def Answer.keys : Answer → List String
  | .cells l => l.keys ++ l.sort.map (·.key)
  | .count t => t.key.toList

/-- Conditions and the answer ask for keys of complete records only, and rows are as wide as their
tables. -/
structure Query.Sound (q : Query) : Prop where
  predicates : ∀ key ∈ q.predicates.filterMap Predicate.key?, key ∈ q.keys
  answer : ∀ key ∈ q.answer.keys, key ∈ q.keys
  base : q.base.relation.Even
  levels : ∀ l ∈ q.levels, l.relation.Even

/-- A record has values under all of some keys. -/
def Record.Has (r : Record) (keys : List String) : Prop :=
  ∀ key ∈ keys, ∃ v, r.get? key = some v

/-- A scan met no fault and found records that have some keys. -/
structure Scan.Complete (keys : List String) (scan : Scan) : Prop where
  fault : scan.fault = none
  records : ∀ r ∈ scan.records, r.Has keys

/-- A scan that finds no record, and fails if another scan found one and there is a row to try;
if it does not fail, it leaves the record as the other scan does. -/
structure Scan.Halts (rows : List Row) (f : Fault) (scan other : Scan) : Prop where
  records : scan.records = []
  idle : other.records = [] ∨ rows = [] → scan.fault = none ∧ scan.left = other.left
  fault : other.records ≠ [] → rows ≠ [] → scan.fault = some f

/-! ## Lemmas -/

/-! ### Keys of records -/

namespace Record

theorem Has.append {r : Record} {keys keys' : List String} (h : r.Has keys) (h' : r.Has keys') :
    r.Has (keys ++ keys') := by
  intro key hkey
  rcases List.mem_append.1 hkey with hkey | hkey
  · exact h key hkey
  · exact h' key hkey

theorem Has.of_append {r : Record} {keys keys' : List String} (h : r.Has (keys ++ keys')) :
    r.Has keys :=
  fun key hkey => h key (List.mem_append_left _ hkey)

theorem Has.get {r : Record} {keys : List String} (h : r.Has keys) {key : String}
    (hkey : key ∈ keys) : ∃ v, r.get key = .ok v := by
  obtain ⟨v, hv⟩ := h key hkey
  exact ⟨v, get_of_get? hv⟩

/-- A row that is merged takes no key away. -/
theorem Has.merge {keys : List String} (table : String) (columns : List String) :
    ∀ {row : Row} {r : Record}, r.Has keys → (r.merge table columns row).Has keys := by
  induction columns with
  | nil => intro row r h; exact h
  | cons c rest ih =>
    intro row r h
    cases row with
    | nil => exact h
    | cons v vs =>
      have hset : (r.set (columnKey table c) v).Has keys := by
        intro key hkey
        rw [get?_set]
        split
        · exact ⟨v, rfl⟩
        · exact h key hkey
      exact ih hset

/-- A row as wide as its table writes all keys of the table. -/
theorem has_merge (table : String) (columns : List String) :
    ∀ {row : Row} (r : Record), row.length = columns.length →
      (r.merge table columns row).Has (columns.map (columnKey table)) := by
  induction columns with
  | nil => intro row r _ key hkey; cases hkey
  | cons c rest ih =>
    intro row r hlen
    cases row with
    | nil => cases hlen
    | cons v vs =>
      have hfirst : (r.set (columnKey table c) v).Has [columnKey table c] := by
        intro key hkey
        obtain rfl := List.mem_singleton.1 hkey
        exact ⟨v, by rw [get?_set, if_pos rfl]⟩
      exact (hfirst.merge table rest).append (ih _ (Nat.succ.inj hlen))

end Record

namespace Level

variable {l : Level} {r : Record} {present : List String}

theorem has_merge (heven : l.relation.Even) (hr : r.Has present) {row : Row}
    (hrow : row ∈ l.relation.rows) : (l.merge r row).Has (present ++ l.keys) := by
  have hwidth : row.length = l.relation.table.columnNames.length := by
    rw [heven.widths row hrow, Table.columnNames, List.length_map]
  exact (hr.merge _ _).append (Record.has_merge _ _ r hwidth)

theorem get?_merge_of_not_mem {key : String} (h : key ∉ l.keys) (r : Record) (row : Row) :
    (l.merge r row).get? key = r.get? key :=
  Record.get?_merge_of_ne _ row r fun _ hc heq => h (heq ▸ List.mem_map_of_mem hc)

theorem missing?_eq_some {key : String} (h : l.missing? present = some key) :
    key ∉ present ∧ ∃ e, l.on = some e ∧ e.key = key := by
  obtain ⟨hkey, hnot⟩ := Option.filter_eq_some_iff.1 h
  obtain ⟨e, he, rfl⟩ := Option.map_eq_some_iff.1 hkey
  exact ⟨by simpa using hnot, e, he, rfl⟩

/-- A level whose key is there can be asked whether it admits a row. -/
theorem admits_of_present (h : l.missing? present = none) (hr : r.Has present) (row : Row) :
    ∃ hit, l.admits r row = .ok hit := by
  unfold admits
  cases hon : l.on with
  | none => exact ⟨true, rfl⟩
  | some e =>
    have hkey : e.key ∈ present := by
      simpa [missing?, hon] using h
    obtain ⟨v, hv⟩ := hr.get hkey
    dsimp only
    rw [OnEquality.holds, hv, ok_bind]
    split
    · exact ⟨_, rfl⟩
    · exact ⟨_, rfl⟩

/-- A level whose key is not there cannot be asked. -/
theorem admits_of_missing {key : String} (h : l.missing? present = some key)
    (hr : r.get? key = none) (row : Row) : l.admits r row = .error (.notInRow key) := by
  obtain ⟨-, e, hon, rfl⟩ := missing?_eq_some h
  unfold admits
  rw [hon]
  dsimp only
  rw [OnEquality.holds, Record.get, hr]
  rfl

end Level

/-- A stray key is one that no level before the stray one writes. -/
theorem stray?_not_mem (levels : List Level) :
    ∀ {present : List String} {x : Stray}, stray? present levels = some x →
      x.key ∉ present ∧ ∀ l ∈ x.before, x.key ∉ l.keys := by
  induction levels with
  | nil => intro present x h; cases h
  | cons l rest ih =>
    intro present x h
    unfold stray? at h
    split at h
    · next key hmissing =>
      obtain rfl := Option.some.inj h
      exact ⟨(Level.missing?_eq_some hmissing).1, by simp⟩
    · obtain ⟨x, hx, rfl⟩ := Option.map_eq_some_iff.1 h
      obtain ⟨hpresent, hbefore⟩ := ih hx
      rw [List.mem_append, not_or] at hpresent
      refine ⟨hpresent.1, fun l' hl' => ?_⟩
      rcases List.mem_cons.1 hl' with rfl | hl'
      · exact hpresent.2
      · exact hbefore l' hl'

/-- The levels before a stray one are levels of the query, and none of them is stray. -/
theorem stray?_before (levels : List Level) :
    ∀ {present : List String} {x : Stray}, stray? present levels = some x →
      stray? present x.before = none ∧ ∀ l ∈ x.before, l ∈ levels := by
  induction levels with
  | nil => intro present x h; cases h
  | cons l rest ih =>
    intro present x h
    unfold stray? at h
    split at h
    · obtain rfl := Option.some.inj h
      exact ⟨rfl, by simp⟩
    · next hmissing =>
      obtain ⟨x, hx, rfl⟩ := Option.map_eq_some_iff.1 h
      obtain ⟨hnone, hmem⟩ := ih hx
      refine ⟨?_, fun l' hl' => ?_⟩
      · simp only [stray?, hmissing, hnone, Option.map_none]
      · rcases List.mem_cons.1 hl' with rfl | hl'
        · exact List.mem_cons_self
        · exact List.mem_cons_of_mem _ (hmem l' hl')

/-! ### Scans without a stray level -/

namespace Scan

variable {l : Level} {inner inner' : Record → Scan} {present keys : List String}

/-- Rows are tried one after the other; the next one finds what the records had before. -/
theorem tryRows_complete (hmissing : l.missing? present = none)
    (rows : List Row) (hmerge : ∀ row ∈ rows, ∀ r, r.Has present → (l.merge r row).Has
      (present ++ l.keys))
    (hinner : ∀ r, r.Has (present ++ l.keys) → (inner r).Complete keys ∧
      (inner r).left.Has (present ++ l.keys)) :
    ∀ r, r.Has present → (tryRows l inner rows r).Complete keys ∧
      (tryRows l inner rows r).left.Has present := by
  induction rows with
  | nil => intro r hr; exact ⟨⟨rfl, by simp [tryRows]⟩, hr⟩
  | cons row rest ih =>
    intro r hr
    have ih := ih fun row' hrow' => hmerge row' (List.mem_cons_of_mem _ hrow')
    obtain ⟨hit, hhit⟩ := l.admits_of_present hmissing hr row
    unfold tryRows
    rw [hhit]
    cases hit with
    | false => exact ih r hr
    | true =>
      obtain ⟨hfirst, hleft⟩ := hinner _ (hmerge row List.mem_cons_self r hr)
      obtain ⟨hothers, hlast⟩ := ih _ hleft.of_append
      dsimp only
      rw [hfirst.fault]
      refine ⟨⟨hothers.fault, fun r' hr' => ?_⟩, hlast⟩
      rcases List.mem_append.1 hr' with hr' | hr'
      · exact hfirst.records r' hr'
      · exact hothers.records r' hr'

/-- Without a stray level every level is asked for what is there. -/
theorem descend_complete (levels : List Level) (heven : ∀ l ∈ levels, l.relation.Even) :
    ∀ (present : List String), stray? present levels = none → ∀ r : Record, r.Has present →
      (descend levels r).Complete (present ++ levels.flatMap (·.keys)) ∧
        (descend levels r).left.Has present := by
  induction levels with
  | nil =>
    intro present _ r hr
    rw [List.flatMap_nil, List.append_nil]
    refine ⟨⟨rfl, fun r' hr' => ?_⟩, hr⟩
    obtain rfl := List.mem_singleton.1 hr'
    exact hr
  | cons l rest ih =>
    intro present hstray r hr
    unfold stray? at hstray
    split at hstray
    · cases hstray
    · next hmissing =>
      have hrest := ih (fun l' hl' => heven l' (List.mem_cons_of_mem _ hl')) (present ++ l.keys)
        (Option.map_eq_none_iff.1 hstray)
      rw [List.append_assoc, ← List.flatMap_cons] at hrest
      exact tryRows_complete hmissing l.relation.rows
        (fun row hrow r hr => l.has_merge (heven l List.mem_cons_self) hr hrow) hrest r hr

theorem run_complete {base : Level} {levels : List Level}
    (hinner : ∀ r : Record, r.Has base.keys → (descend levels r).Complete keys)
    (rows : List Row) (hmerge : ∀ row ∈ rows, (base.merge {} row).Has base.keys) :
    (run base levels rows).2 = none ∧ ∀ r ∈ (run base levels rows).1, r.Has keys := by
  induction rows with
  | nil => exact ⟨rfl, by simp [run]⟩
  | cons row rest ih =>
    obtain ⟨hfault, hrecords⟩ := ih fun row' hrow' => hmerge row' (List.mem_cons_of_mem _ hrow')
    have hfirst := hinner _ (hmerge row List.mem_cons_self)
    simp only [run, hfirst.fault]
    refine ⟨hfault, fun r hr => ?_⟩
    rcases List.mem_append.1 hr with hr | hr
    · exact hfirst.records r hr
    · exact hrecords r hr

/-! ### Scans with a stray level -/

/-- What a level does not write is not there after its rows, if what comes after them does not write
it either. -/
theorem tryRows_left {key : String} (hl : key ∉ l.keys)
    (hinner : ∀ r : Record, r.get? key = none → (inner r).left.get? key = none) (rows : List Row) :
    ∀ r : Record, r.get? key = none → (tryRows l inner rows r).left.get? key = none := by
  induction rows with
  | nil => intro r hr; exact hr
  | cons row rest ih =>
    intro r hr
    have hmerged : (l.merge r row).get? key = none := by
      rw [l.get?_merge_of_not_mem hl, hr]
    unfold tryRows
    split
    · exact hr
    · exact ih r hr
    · dsimp only
      split
      · exact hinner _ hmerged
      · exact ih _ (hinner _ hmerged)

theorem descend_left {key : String} (levels : List Level) (hlevels : ∀ l ∈ levels, key ∉ l.keys) :
    ∀ r : Record, r.get? key = none → (descend levels r).left.get? key = none := by
  induction levels with
  | nil => intro r hr; exact hr
  | cons l rest ih =>
    exact tryRows_left (hlevels l List.mem_cons_self)
      (ih fun l' hl' => hlevels l' (List.mem_cons_of_mem _ hl')) l.relation.rows

/-- Where one scan goes on and another halts, trying the same rows halts as well. -/
theorem tryRows_halts {rows' : List Row} {f : Fault} {key : String}
    (hmissing : l.missing? present = none) (hkey : key ∉ l.keys) (rows : List Row)
    (hmerge : ∀ row ∈ rows, ∀ r, r.Has present → (l.merge r row).Has (present ++ l.keys))
    (hinner : ∀ r, r.Has (present ++ l.keys) → r.get? key = none →
      Halts rows' f (inner r) (inner' r) ∧ (inner' r).fault = none ∧
        (inner' r).left.Has (present ++ l.keys) ∧ (inner' r).left.get? key = none) :
    ∀ r, r.Has present → r.get? key = none →
      Halts rows' f (tryRows l inner rows r) (tryRows l inner' rows r) := by
  induction rows with
  | nil =>
    intro r _ _
    exact ⟨rfl, fun _ => ⟨rfl, rfl⟩, fun hne => absurd rfl hne⟩
  | cons row rest ih =>
    intro r hr hnone
    have ih := ih fun row' hrow' => hmerge row' (List.mem_cons_of_mem _ hrow')
    obtain ⟨hit, hhit⟩ := l.admits_of_present hmissing hr row
    unfold tryRows
    rw [hhit]
    cases hit with
    | false => exact ih r hr hnone
    | true =>
      obtain ⟨hfirst, hfault, hleft, hleft'⟩ := hinner _ (hmerge row List.mem_cons_self r hr)
        (by rw [l.get?_merge_of_not_mem hkey, hnone])
      have hothers := ih _ hleft.of_append hleft'
      dsimp only
      rw [hfault]
      dsimp only
      by_cases hidle : (inner' (l.merge r row)).records = [] ∨ rows' = []
      · obtain ⟨hidle', hsame⟩ := hfirst.idle hidle
        rw [hidle', hsame]
        refine ⟨?_, fun h => hothers.idle (h.imp_left fun h => (List.append_eq_nil_iff.1 h).2),
          fun hne hrows => hothers.fault (fun hnil => hne ?_) hrows⟩
        · dsimp only
          rw [hfirst.records, hothers.records, List.append_nil]
        · dsimp only
          rw [hidle.resolve_right hrows, hnil, List.append_nil]
      · rw [not_or] at hidle
        rw [hfirst.fault hidle.1 hidle.2]
        refine ⟨hfirst.records, fun h => ?_, fun _ _ => rfl⟩
        rcases h with h | h
        · exact absurd (List.append_eq_nil_iff.1 h).1 hidle.1
        · exact absurd h hidle.2

/-- With a stray level a scan of all levels halts where one of the levels before it goes on. -/
theorem descend_halts (levels : List Level) (heven : ∀ l ∈ levels, l.relation.Even) :
    ∀ {present : List String} {x : Stray}, stray? present levels = some x →
      ∀ r : Record, r.Has present → r.get? x.key = none →
        Halts x.level.relation.rows (.notInRow x.key) (descend levels r) (descend x.before r) := by
  induction levels with
  | nil => intro present x h; cases h
  | cons l rest ih =>
    intro present x h r hr hnone
    unfold stray? at h
    split at h
    · next key hmissing =>
      -- the level itself is stray: its first row cannot be tested
      obtain rfl := Option.some.inj h
      show Halts l.relation.rows (.notInRow key) (tryRows l (descend rest) l.relation.rows r)
        ⟨[r], none, r⟩
      cases l.relation.rows with
      | nil => exact ⟨rfl, fun _ => ⟨rfl, rfl⟩, fun _ hrows => absurd rfl hrows⟩
      | cons row others =>
        unfold tryRows
        rw [l.admits_of_missing hmissing hnone row]
        exact ⟨rfl, fun h => by simp at h, fun _ _ => rfl⟩
    · next hmissing =>
      obtain ⟨x, hx, rfl⟩ := Option.map_eq_some_iff.1 h
      obtain ⟨hkey, hbefore⟩ := stray?_not_mem rest hx
      obtain ⟨hground, hmem⟩ := stray?_before rest hx
      rw [List.mem_append, not_or] at hkey
      have hrest : ∀ l' ∈ rest, l'.relation.Even := fun l' hl' =>
        heven l' (List.mem_cons_of_mem _ hl')
      refine tryRows_halts hmissing hkey.2 l.relation.rows
        (fun row hrow r hr => l.has_merge (heven l List.mem_cons_self) hr hrow)
        (fun r hr hnone => ?_) r hr hnone
      obtain ⟨hcomplete, hleft⟩ := descend_complete x.before (fun l' hl' => hrest l' (hmem l' hl'))
        (present ++ l.keys) hground r hr
      exact ⟨ih hrest hx r hr hnone, hcomplete.fault, hleft, descend_left x.before hbefore r hnone⟩

/-- With a stray level no record is found, and the scan fails if the levels before the stray one
find a record and the stray one has a row. -/
theorem run_halts {base : Level} {levels before : List Level} {rows' : List Row} {f : Fault}
    {key : String}
    (hinner : ∀ r : Record, r.Has base.keys → r.get? key = none →
      Halts rows' f (descend levels r) (descend before r) ∧ (descend before r).fault = none)
    (hkey : key ∉ base.keys) (rows : List Row)
    (hmerge : ∀ row ∈ rows, (base.merge {} row).Has base.keys) :
    run base levels rows =
      ([], if !(run base before rows).1.isEmpty && !rows'.isEmpty then some f else none) := by
  induction rows with
  | nil => rfl
  | cons row rest ih =>
    have ih := ih fun row' hrow' => hmerge row' (List.mem_cons_of_mem _ hrow')
    obtain ⟨hfirst, hfault⟩ := hinner _ (hmerge row List.mem_cons_self)
      (base.get?_merge_of_not_mem hkey {} row)
    simp only [run, hfault]
    by_cases hidle : (descend before (base.merge {} row)).records = [] ∨ rows' = []
    · simp only [(hfirst.idle hidle).1, ih, hfirst.records]
      rcases hidle with hidle | hidle
      · simp [hidle]
      · simp [hidle]
    · rw [not_or] at hidle
      simp only [hfirst.fault hidle.1 hidle.2, hfirst.records]
      simp [hidle.1, hidle.2]

end Scan

/-! ### Queries -/

theorem Predicate.passes_of_ok {r : Record} {p : Predicate} {hit : Bool}
    (h : p.holds r = .ok hit) : p.passes r = hit := by
  rw [passes, h]

/-- What a complete record is asked for is there. -/
theorem Predicate.all_ok {r : Record} {keys : List String} (hr : r.Has keys) (ps : List Predicate)
    (h : ∀ key ∈ ps.filterMap key?, key ∈ keys) : all r ps = .ok (ps.all (passes r)) := by
  induction ps with
  | nil => rfl
  | cons p rest ih =>
    have hothers := ih fun key hkey => h key (by
      rw [List.filterMap_cons]
      split
      · exact hkey
      · exact List.mem_cons_of_mem _ hkey)
    obtain ⟨hit, hhit⟩ : ∃ hit, p.holds r = .ok hit := by
      cases p with
      | always => exact ⟨true, rfl⟩
      | test key o right =>
        obtain ⟨v, hv⟩ := hr.get (h key (by simp [key?]))
        exact ⟨_, by rw [holds, hv]; rfl⟩
    rw [all, hhit, ok_bind, List.all_cons, passes_of_ok hhit]
    cases hit with
    | true => exact hothers
    | false => rfl

theorem Layout.values_ok {r : Record} {keys : List String} (hr : r.Has keys) (asked : List String)
    (h : ∀ key ∈ asked, key ∈ keys) : ∃ vs, values r asked = .ok vs := by
  induction asked with
  | nil => exact ⟨[], rfl⟩
  | cons key rest ih =>
    obtain ⟨v, hv⟩ := hr.get (h key List.mem_cons_self)
    obtain ⟨vs, hvs⟩ := ih fun key' hkey' => h key' (List.mem_cons_of_mem _ hkey')
    exact ⟨v :: vs, by rw [values, hv, hvs]; rfl⟩

/-- Of records that can all be tested, those that meet all predicates are kept. -/
theorem Query.keep_ok {ps : List Predicate} {ended : Option Fault} {records : List Record}
    (h : ∀ r ∈ records, Predicate.all r ps = .ok (ps.all (Predicate.passes r))) :
    keep ps ended records = (records.filter fun r => ps.all (Predicate.passes r), ended) := by
  induction records with
  | nil => rfl
  | cons r rest ih =>
    have hothers := ih fun r' hr' => h r' (List.mem_cons_of_mem _ hr')
    simp only [keep, h r List.mem_cons_self, hothers, List.filter_cons]

theorem mapRecords_ok {α : Type} {f : Record → Except Fault α} {ended : Option Fault}
    {records : List Record} (h : ∀ r ∈ records, ∃ x, f r = .ok x) :
    (mapRecords f ended records).2 = ended := by
  induction records with
  | nil => rfl
  | cons r rest ih =>
    obtain ⟨x, hx⟩ := h r List.mem_cons_self
    simp only [mapRecords, hx]
    exact ih fun r' hr' => h r' (List.mem_cons_of_mem _ hr')

/-- An answer to complete records ends as they did. -/
theorem Answer.frames_ok {a : Answer} {keys : List String} (h : ∀ key ∈ a.keys, key ∈ keys)
    {ended : Option Fault} {records : List Record} (hrecords : ∀ r ∈ records, r.Has keys) :
    (a.frames records ended).2 = ended := by
  cases a with
  | cells l =>
    show (mapRecords l.project ended records).2 = ended
    refine mapRecords_ok fun r hr => ?_
    obtain ⟨cells, hcells⟩ := Layout.values_ok (hrecords r hr) l.keys
      fun key hkey => h key (List.mem_append_left _ hkey)
    obtain ⟨sort, hsort⟩ := Layout.values_ok (hrecords r hr) (l.sort.map (·.key))
      fun key hkey => h key (List.mem_append_right _ hkey)
    exact ⟨_, by rw [Layout.project, hcells, hsort]; rfl⟩
  | count t =>
    show (mapRecords t.counts ended records).2 = ended
    refine mapRecords_ok fun r hr => ?_
    unfold Tally.counts
    cases hkey : t.key with
    | none => exact ⟨true, rfl⟩
    | some key =>
      obtain ⟨v, hv⟩ := (hrecords r hr).get (h key (by simp [Answer.keys, hkey]))
      exact ⟨_, by dsimp only; rw [hv]; rfl⟩

/-- The records of a scan are complete, and only a stray level ends it before its last row. -/
theorem Query.run_sound {q : Query} (h : q.Sound) :
    (Scan.run q.base q.levels q.base.relation.rows).2 = q.scanFault ∧
      ∀ r ∈ (Scan.run q.base q.levels q.base.relation.rows).1, r.Has q.keys := by
  have hempty : Record.Has {} [] := fun _ hkey => by cases hkey
  have hmerge (row : Row) (hrow : row ∈ q.base.relation.rows) :
      (q.base.merge {} row).Has q.base.keys :=
    q.base.has_merge h.base hempty hrow
  unfold scanFault
  cases hstray : q.stray? with
  | none =>
    have hcomplete (r : Record) (hr : r.Has q.base.keys) :=
      (Scan.descend_complete q.levels h.levels q.base.keys hstray r hr).1
    exact Scan.run_complete hcomplete q.base.relation.rows hmerge
  | some x =>
    obtain ⟨hkey, -⟩ := stray?_not_mem q.levels hstray
    obtain ⟨hground, hbefore⟩ := stray?_before q.levels hstray
    have hinner (r : Record) (hr : r.Has q.base.keys) (hnone : r.get? x.key = none) :=
      And.intro (Scan.descend_halts q.levels h.levels hstray r hr hnone)
        (Scan.descend_complete x.before (fun l hl => h.levels l (hbefore l hl)) q.base.keys hground
          r hr).1.fault
    have hrun := Scan.run_halts hinner hkey q.base.relation.rows hmerge
    rw [hrun]
    exact ⟨rfl, fun _ hr => by cases hr⟩

/-- The records of a query are those of its scan that meet all its predicates. -/
theorem Query.records_eq {q : Query} (h : q.Sound) :
    q.records = ((Scan.run q.base q.levels q.base.relation.rows).1.filter fun r =>
      q.predicates.all (Predicate.passes r), q.scanFault) := by
  obtain ⟨hfault, hrecords⟩ := run_sound h
  simp only [records, hfault]
  exact keep_ok fun r hr => Predicate.all_ok (hrecords r hr) q.predicates h.predicates

/-- The fault of a query whose names have been found is that of a stray level, if there is one and a
row gets to it. -/
theorem Query.frames_fault {q : Query} (h : q.Sound) : q.frames.2 = q.scanFault := by
  simp only [frames, records_eq h]
  exact Answer.frames_ok h.answer fun r hr => (run_sound h).2 r (List.mem_filter.1 hr).1

end Tabula
