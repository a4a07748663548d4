import Tabula.Proofs.Operations
import Tabula.Proofs.Reach

/-!
# The shape of relations

The columns of a table have different names, and every row has one value for each of them.
`Catalog.Reachable.even`: whatever statements are executed, no relation loses its shape.
-/

namespace Tabula

/-- Columns have different names, and rows are as wide as the table. -/
structure Relation.Even (r : Relation) : Prop where
  names : r.table.columnNames.Nodup
  widths : ∀ row ∈ r.rows, row.length = r.table.columns.length

/-- Every relation of a catalog has its shape. -/
def Catalog.Even (c : Catalog) : Prop :=
  ∀ name r, c.get? name = some r → r.Even

namespace Relation

theorem Even.new {s : CreateTable} {t : Table} (h : s.define = .ok t) : Even { table := t } :=
  ⟨CreateTable.define_columnNames_nodup h, fun _ hrow => by cases hrow⟩

theorem assign_length (assignments : List (Nat × Value)) (row : Row) :
    (assign assignments row).length = row.length := by
  induction assignments using List.reverseRecOn with
  | nil => rfl
  | append_singleton front a ih =>
    have hstep : assign (front ++ [a]) row = (assign front row).set a.1 a.2 := by simp [assign]
    rw [hstep, List.length_set, ih]

theorem Even.change {r next : Relation} (hr : r.Even) (h : r.Change next) : next.Even := by
  cases h with
  | insert h =>
    obtain ⟨row, hrow, rfl⟩ := insert_eq_ok h
    refine ⟨hr.names, fun row' hrow' => ?_⟩
    rcases List.mem_append.1 hrow' with hold | hnew
    · exact hr.widths row' hold
    · rw [List.mem_singleton.1 hnew]
      exact (newRow_eq_ok _ hrow).1
  | delete h =>
    obtain ⟨hits, -, rfl, -⟩ := deleteWhere_eq_ok h
    exact ⟨hr.names, fun row hrow => hr.widths row ((kept_sublist r.rows hits).subset hrow)⟩
  | truncate => exact ⟨hr.names, fun _ hrow => by cases hrow⟩
  | update h =>
    obtain ⟨resolved, hits, -, -, -, rfl, -⟩ := updateWhere_eq_ok h
    refine ⟨hr.names, fun row hrow => ?_⟩
    obtain ⟨⟨old, hit⟩, hmem, rfl⟩ := List.mem_map.1 hrow
    have hold := hr.widths old (List.of_mem_zip hmem).1
    cases hit with
    | true => rw [← hold]; exact assign_length resolved old
    | false => exact hold
  | index h =>
    obtain ⟨-, -, ⟨-, rfl⟩ | ⟨-, position, -, -, -, rfl⟩⟩ := createIndex_eq_ok h
    · exact ⟨hr.names, hr.widths⟩
    · refine ⟨by rw [setUnique_columnNames]; exact hr.names, fun row hrow => ?_⟩
      rw [hr.widths row hrow]
      simp [setUnique]

end Relation

/-- Relations keep their shape whatever statements are executed. -/
theorem Catalog.Reachable.even {c : Catalog} (h : c.Reachable) : c.Even :=
  h.relation Relation.Even.new Relation.Even.change

end Tabula
