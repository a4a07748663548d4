import Tabula.Definition
import Tabula.Proofs.Attempt

/-!
# What table definitions describe

A CREATE TABLE describes a table of its own name whose columns have different names; a primary key
changes no name.
-/

namespace Tabula

namespace Table

/-- What a change of one column keeps of it is kept of all of them. -/
theorem map_modify {α : Type} (columns : List Column) (position : Nat) {f : Column → Column}
    {g : Column → α} (hf : ∀ c, g (f c) = g c) :
    (columns.modify position f).map g = columns.map g := by
  apply List.ext_getElem?
  intro i
  rw [List.getElem?_map, List.getElem?_modify, List.getElem?_map]
  cases columns[i]? with
  | none => rfl
  | some c => by_cases hi : position = i <;> simp [hi, hf]

/-- Names stay where every column keeps its own. -/
theorem modify_columnNames (t : Table) (position : Nat) {f : Column → Column}
    (hf : ∀ c, (f c).name = c.name) :
    columnNames { t with columns := t.columns.modify position f } = t.columnNames :=
  map_modify t.columns position hf

theorem firstRepeated?_eq_none (columns : List Column) :
    ∀ {seen : List String}, firstRepeated? seen columns = none →
      (columns.map (·.name)).Nodup ∧ ∀ a ∈ columns, a.name ∉ seen := by
  induction columns with
  | nil => intro seen _; exact ⟨.nil, fun a ha => by cases ha⟩
  | cons c rest ih =>
    intro seen h
    unfold firstRepeated? at h
    split at h
    · cases h
    · next hnew =>
      obtain ⟨hnodup, hdisjoint⟩ := ih h
      refine ⟨List.nodup_cons.2 ⟨fun hmem => ?_, hnodup⟩, fun a ha => ?_⟩
      · obtain ⟨a, ha, hname⟩ := List.mem_map.1 hmem
        exact hdisjoint a ha (by simp [hname])
      · rcases List.mem_cons.1 ha with rfl | ha
        · simpa using hnew
        · exact fun hseen => hdisjoint a ha (List.mem_cons_of_mem _ hseen)

theorem make_eq_ok {name : String} {columns : List Column} {t : Table}
    (h : make name columns = .ok t) : t = ⟨name, columns⟩ ∧ t.columnNames.Nodup := by
  unfold make at h
  split at h
  · cases h
  · next hnone =>
    obtain rfl := Except.ok.inj h
    exact ⟨rfl, (firstRepeated?_eq_none _ hnone).1⟩

/-- A primary key leaves all of its columns but whether they forbid nulls and are unique. -/
theorem setKeys_map {α : Type} {g : Column → α} {sole : Bool}
    (hg : ∀ a : Column, g { a with notNull := true, unique := a.unique || sole } = g a)
    (keys : List String) :
    ∀ {t next : Table}, t.setKeys sole keys = .ok next →
      next.name = t.name ∧ next.columns.map g = t.columns.map g := by
  induction keys with
  | nil => intro t next h; rw [Except.ok.inj h]; exact ⟨rfl, rfl⟩
  | cons key rest ih =>
    intro t next h
    simp only [setKeys, bind_eq_ok] at h
    obtain ⟨position, -, h⟩ := h
    obtain ⟨hname, hcolumns⟩ := ih h
    exact ⟨hname, hcolumns.trans (map_modify t.columns position hg)⟩

/-- A primary key leaves the name of its table and those of its columns. -/
theorem setKeys_eq_ok {sole : Bool} (keys : List String) {t next : Table}
    (h : t.setKeys sole keys = .ok next) :
    next.name = t.name ∧ next.columnNames = t.columnNames :=
  setKeys_map (fun _ => rfl) keys h

end Table

namespace CreateTable

theorem define_name {s : CreateTable} {t : Table} (h : s.define = .ok t) : t.name = s.table := by
  simp only [define, bind_eq_ok] at h
  obtain ⟨made, hmake, hkeys⟩ := h
  rw [(Table.setKeys_eq_ok _ hkeys).1, (Table.make_eq_ok hmake).1]

theorem define_columnNames_nodup {s : CreateTable} {t : Table} (h : s.define = .ok t) :
    t.columnNames.Nodup := by
  simp only [define, bind_eq_ok] at h
  obtain ⟨made, hmake, hkeys⟩ := h
  rw [(Table.setKeys_eq_ok _ hkeys).2]
  exact (Table.make_eq_ok hmake).2

end CreateTable

end Tabula
