import Tabula.Lookup
import Tabula.Relation
import Tabula.Scope

/-!
# Records

A record is a row that is being put together from the rows of several tables: values under the keys
of their columns.  `Record.get?` is the view by which `set` and `merge` are described.
-/

namespace Tabula

/-- Values by key. -/
structure Record where
  fields : List (String × Value) := []
deriving DecidableEq

namespace Record

/-- The value under a key. -/
def get? (r : Record) (key : String) : Option Value :=
  r.fields.lookup key

/-- The value under a key that has to be there. -/
def get (r : Record) (key : String) : Except Fault Value :=
  match r.get? key with
  | some v => .ok v
  | none => .error (.notInRow key)

/-- Writes a field over the field of the same key, or at the end. -/
def setField (key : String) (v : Value) : List (String × Value) → List (String × Value)
  | [] => [(key, v)]
  | (other, w) :: rest =>
    if key = other then (key, v) :: rest else (other, w) :: setField key v rest

/-- The record with a value under a key. -/
def set (r : Record) (key : String) (v : Value) : Record :=
  ⟨setField key v r.fields⟩

/-- The record with the values of a row of a table under the keys of its columns. -/
def merge (r : Record) (table : String) (columns : List String) (row : Row) : Record :=
  (columns.zip row).foldl (fun r (column, v) => r.set (columnKey table column) v) r

/-- The record of one row of a table. -/
def ofRow (t : Table) (row : Row) : Record :=
  merge {} t.name t.columnNames row

/-! ## Lemmas -/

theorem lookup_setField (key : String) (v : Value) (other : String) (fs : List (String × Value)) :
    (setField key v fs).lookup other = if other = key then some v else fs.lookup other := by
  induction fs with
  | nil => exact lookup_cons_ite key v other []
  | cons f rest ih =>
    obtain ⟨k, w⟩ := f
    unfold setField
    by_cases hk : key = k
    · subst hk
      by_cases h : other = key <;> simp [lookup_cons_ite, h]
    · rw [if_neg hk, lookup_cons_ite, lookup_cons_ite, ih]
      by_cases ho : other = k
      · subst ho
        simp [Ne.symm hk]
      · simp [ho]

theorem get?_set (r : Record) (key : String) (v : Value) (other : String) :
    (r.set key v).get? other = if other = key then some v else r.get? other :=
  lookup_setField key v other r.fields

end Record

end Tabula
