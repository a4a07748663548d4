import Tabula.Proofs.Declaration
import Tabula.Proofs.Readable

/-!
# What batches lead to

A batch is a text, so its statements are readable, and a catalog that batches lead to has less in it
than one that any statements lead to: every table has a column.

* `Catalog.Written.runBatch`: the catalogs that batches lead to are among those that readable
  statements lead to.
* `Catalog.Written.columns`: their tables have columns.
-/

namespace Tabula

/-- The catalogs that readable statements lead to from a new engine, whether they succeed or fail. -/
inductive Catalog.Written : Catalog → Prop where
  | new : Written {}
  | step {c : Catalog} (times : Times) (s : Statement) :
      s.Readable → Written c → Written (s.execute times c).catalog

namespace Catalog.Written

theorem reachable {c : Catalog} (h : c.Written) : c.Reachable := by
  induction h with
  | new => exact .new
  | step times s _ _ ih => exact .step times s ih

theorem executeAll {clock : Calendar.Clock} (statements : List Statement)
    (hreadable : ∀ s ∈ statements, s.Readable) :
    ∀ {i : Nat} {c : Catalog}, c.Written →
      (Statement.executeAll clock i statements c).catalog.Written := by
  induction statements with
  | nil => intro i c h; exact h
  | cons s rest ih =>
    intro i c h
    have hfirst : (s.execute (clock i) c).catalog.Written :=
      .step (clock i) s (hreadable s List.mem_cons_self) h
    unfold Statement.executeAll
    dsimp only
    split
    · exact hfirst
    · exact ih (fun other hother => hreadable other (List.mem_cons_of_mem _ hother)) hfirst

/-- Batches lead to such catalogs only. -/
theorem runBatch {clock : Calendar.Clock} {text : String} {c : Catalog} (h : c.Written) :
    (c.runBatch clock text).catalog.Written := by
  unfold Catalog.runBatch
  cases hparse : Statement.parse text with
  | error f => exact h
  | ok statements => exact executeAll statements (Statement.parse_readable hparse) h

/-- A readable CREATE TABLE declares a column, and no statement takes one away. -/
theorem columns {c : Catalog} (h : c.Written) :
    ∀ {name : String} {r : Relation}, c.get? name = some r → r.table.columnNames ≠ [] := by
  induction h with
  | new => intro name r hr; cases hr
  | step times s hreadable _ ih =>
    intro name r hr
    rcases Statement.execute_origin hr with ⟨d, t, rfl, -, -, ht, rfl⟩ | ⟨old, hold, hchanges⟩
    · have hcolumns : d.columns ≠ [] := CreateTable.Readable.columns hreadable
      rw [CreateTable.define_columnNames ht]
      simpa using hcolumns
    · rw [Table.columnNames_of_plain hchanges.plain]
      exact ih hold

end Catalog.Written

end Tabula
