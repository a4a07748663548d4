import Tabula.Proofs.Judging
import Tabula.Proofs.Typing

/-!
# Where the values of a record come from

Several levels may write one key: a table that is joined twice does.  Under each key a record that a
scan finds has the value that the last level with the key wrote, so all records of a query take
their values under one key from one column.

* `Scan.tryRows_records`: which records a level finds.
* `Scan.descend_written`: whose value stands under a key.
* `Query.records_stored`: all records of a query hold what one column stores.
-/

namespace Tabula

/-! ## Algorithm -/

/-- A catalog has a column of a key. -/
def Catalog.HasColumn (c : Catalog) (key : String) (a : Column) : Prop :=
  ∃ name r, c.get? name = some r ∧ a ∈ r.table.columns ∧ columnKey name a.name = key

/-! ## Lemmas -/

namespace Scan

variable {l : Level} {inner : Record → Scan}

/-- A record that a level finds begins with one of its rows, and with a record for which what holds
of the one that is carried along holds. -/
theorem tryRows_records {P : Record → Prop} {rows : List Row}
    (hinner : ∀ row ∈ rows, ∀ r, P r → (inner (l.merge r row)).fault = none →
      P (inner (l.merge r row)).left) :
    ∀ {r : Record}, P r → ∀ record ∈ (tryRows l inner rows r).records,
      ∃ row ∈ rows, ∃ r', P r' ∧ record ∈ (inner (l.merge r' row)).records := by
  induction rows with
  | nil => intro r _ record hrecord; cases hrecord
  | cons row rest ih =>
    intro r hr record hrecord
    have ih : ∀ {r : Record}, P r → record ∈ (tryRows l inner rest r).records →
        ∃ row' ∈ row :: rest, ∃ r', P r' ∧ record ∈ (inner (l.merge r' row')).records := by
      intro r hr hrecord
      obtain ⟨row', hrow', hfound⟩ := ih (fun row' hrow' =>
        hinner row' (List.mem_cons_of_mem row hrow')) hr record hrecord
      exact ⟨row', List.mem_cons_of_mem row hrow', hfound⟩
    unfold tryRows at hrecord
    split at hrecord
    · cases hrecord
    · exact ih hr hrecord
    · dsimp only at hrecord
      split at hrecord
      · exact ⟨row, List.mem_cons_self, r, hr, hrecord⟩
      · next hfirst =>
        rcases List.mem_append.1 hrecord with hrecord | hrecord
        · exact ⟨row, List.mem_cons_self, r, hr, hrecord⟩
        · exact ih (hinner row List.mem_cons_self r hr hfirst) hrecord

/-- The records that a scan finds differ from the one it begins with only in what its levels
write. -/
theorem records_sameBut (levels : List Level) :
    ∀ r : Record, ∀ record ∈ (descend levels r).records,
      record.SameBut (levels.flatMap (·.keys)) r := by
  induction levels with
  | nil =>
    intro r record hrecord key _
    rw [List.mem_singleton.1 hrecord]
  | cons l later ih =>
    intro r record hrecord
    rw [List.flatMap_cons]
    obtain ⟨row, -, r', hr', hrecord⟩ := tryRows_records
      (P := fun left => left.SameBut (l.keys ++ later.flatMap (·.keys)) r)
      (fun row _ left hleft hfault =>
        (descend_sameBut later _ hfault).of_append.trans (hleft.merge_left row))
      (fun key _ => rfl) record hrecord
    exact (ih _ record hrecord).of_append.trans (hr'.merge_left row)

/-- Under a key that levels write stands what the last of them with the key wrote. -/
theorem descend_written {key : String} (levels : List Level)
    (hkey : key ∈ levels.flatMap (·.keys)) :
    ∃ l ∈ levels, key ∈ l.keys ∧ ∀ r : Record, ∀ record ∈ (descend levels r).records,
      ∃ row ∈ l.relation.rows, ∃ r', record.get? key = (l.merge r' row).get? key := by
  induction levels with
  | nil => cases hkey
  | cons l later ih =>
    have hfound (r record : Record) (hrecord : record ∈ (descend (l :: later) r).records) :=
      tryRows_records (P := fun _ => True) (fun _ _ _ _ _ => trivial) trivial record hrecord
    by_cases hlater : key ∈ later.flatMap (·.keys)
    · obtain ⟨l', hl', hkeys, hwritten⟩ := ih hlater
      refine ⟨l', List.mem_cons_of_mem l hl', hkeys, fun r record hrecord => ?_⟩
      obtain ⟨row, -, r', -, hrecord⟩ := hfound r record hrecord
      exact hwritten _ record hrecord
    · rw [List.flatMap_cons] at hkey
      refine ⟨l, List.mem_cons_self, (List.mem_append.1 hkey).resolve_right hlater,
        fun r record hrecord => ?_⟩
      obtain ⟨row, hrow, r', -, hrecord⟩ := hfound r record hrecord
      exact ⟨row, hrow, r', records_sameBut later _ record hrecord key hlater⟩

theorem mem_run {base : Level} {levels : List Level} {record : Record} {rows : List Row}
    (h : record ∈ (run base levels rows).1) :
    ∃ row ∈ rows, record ∈ (descend levels (base.merge {} row)).records := by
  induction rows with
  | nil => cases h
  | cons row rest ih =>
    unfold run at h
    dsimp only at h
    split at h
    · exact ⟨row, List.mem_cons_self, h⟩
    · rcases List.mem_append.1 h with h | h
      · exact ⟨row, List.mem_cons_self, h⟩
      · obtain ⟨row', hrow', h⟩ := ih h
        exact ⟨row', List.mem_cons_of_mem row hrow', h⟩

theorem run_written {key : String} (base : Level) (levels : List Level)
    (hkey : key ∈ (base :: levels).flatMap (·.keys)) :
    ∃ l ∈ base :: levels, key ∈ l.keys ∧
      ∀ record ∈ (run base levels base.relation.rows).1,
        ∃ row ∈ l.relation.rows, ∃ r', record.get? key = (l.merge r' row).get? key := by
  by_cases hlater : key ∈ levels.flatMap (·.keys)
  · obtain ⟨l, hl, hkeys, hwritten⟩ := descend_written levels hlater
    refine ⟨l, List.mem_cons_of_mem base hl, hkeys, fun record hrecord => ?_⟩
    obtain ⟨row, -, hrecord⟩ := mem_run hrecord
    exact hwritten _ record hrecord
  · rw [List.flatMap_cons] at hkey
    refine ⟨base, List.mem_cons_self, (List.mem_append.1 hkey).resolve_right hlater,
      fun record hrecord => ?_⟩
    obtain ⟨row, hrow, hrecord⟩ := mem_run hrecord
    exact ⟨row, hrow, {}, records_sameBut levels _ record hrecord key hlater⟩

end Scan

theorem Query.mem_keep {ps : List Predicate} {ended : Option Fault} {r : Record}
    {records : List Record} (h : r ∈ (keep ps ended records).1) : r ∈ records := by
  induction records with
  | nil => exact h
  | cons first rest ih =>
    unfold keep at h
    split at h
    · cases h
    · dsimp only at h
      split at h
      · exact (List.mem_cons.1 h).elim (fun heq => heq ▸ List.mem_cons_self)
          fun h => List.mem_cons_of_mem first (ih h)
      · exact List.mem_cons_of_mem first (ih h)

/-- A level writes under each of its keys what the column of the key stores. -/
theorem Level.merge_stores {l : Level} (heven : l.relation.Even)
    (hstored : l.relation.Filled Column.Stores) {key : String} (hkey : key ∈ l.keys) :
    ∃ a ∈ l.relation.table.columns, columnKey l.table a.name = key ∧
      ∀ row ∈ l.relation.rows, ∀ r, ∃ v, (l.merge r row).get? key = some v ∧ a.Stores v := by
  obtain ⟨name, hname, rfl⟩ := List.mem_map.1 hkey
  obtain ⟨a, ha, rfl⟩ := List.mem_map.1 hname
  obtain ⟨i, hi⟩ := List.mem_iff_getElem?.1 ha
  refine ⟨a, ha, rfl, fun row hrow r => ?_⟩
  obtain ⟨hlt, -⟩ := List.getElem?_eq_some_iff.1 hi
  obtain ⟨v, hv⟩ : ∃ v, row[i]? = some v :=
    ⟨_, List.getElem?_eq_getElem (by rw [heven.widths row hrow]; exact hlt)⟩
  refine ⟨v, ?_, hstored row hrow i a v hi hv⟩
  refine Record.get?_merge l.relation.table.columnNames row r i heven.names ?_ hv
  rw [Table.columnNames, List.getElem?_map, hi]
  rfl

/-! ## Top theorem -/

/-- All records of a query hold under a key what one column of the key stores. -/
theorem Query.records_stored {c : Catalog} (hc : c.Reachable) {now : String} {s : Select}
    {q : Query} (h : s.bind now c = .ok q) {key : String} (hkey : key ∈ q.answer.keys) :
    ∃ a, c.HasColumn key a ∧ ∀ r ∈ q.records.1, ∃ v, r.get? key = some v ∧ a.Stores v := by
  have hwrites : key ∈ (q.base :: q.levels).flatMap (·.keys) :=
    (Select.bind_sound hc h).answer key hkey
  obtain ⟨l, hl, hkeys, hwritten⟩ := Scan.run_written q.base q.levels hwrites
  have hof : l.Of c := Select.bind_levels h l hl
  obtain ⟨a, ha, hname, hstores⟩ := Level.merge_stores (hc.even l.table l.relation hof)
    (hc.stored l.table l.relation hof) hkeys
  refine ⟨a, ⟨l.table, l.relation, hof, ha, hname⟩, fun r hr => ?_⟩
  obtain ⟨row, hrow, r', heq⟩ := hwritten r (Query.mem_keep hr)
  rw [heq]
  exact hstores row hrow r'

end Tabula
