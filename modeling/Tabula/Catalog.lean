import Tabula.Lookup
import Tabula.Relation

/-!
# Catalogs

The relations of an engine by name, in the order of their names.  `Catalog.get?` is the view by
which the operations are described: catalogs that find the same are the same (`Catalog.ext`).
-/

namespace Tabula

/-- The names of entries ascend. -/
def Ascending (entries : List (String × Relation)) : Prop :=
  entries.Pairwise fun a b => a.1 < b.1

theorem Ascending.nil : Ascending [] :=
  List.Pairwise.nil

/-- Relations by name, in ascending order of names. -/
structure Catalog where
  entries : List (String × Relation) := []
  ordered : Ascending entries := by exact .nil
deriving DecidableEq

namespace Catalog

/-- The relation of a name. -/
def get? (c : Catalog) (name : String) : Option Relation :=
  c.entries.lookup name

/-- Whether there is a relation of the name. -/
def contains (c : Catalog) (name : String) : Bool :=
  (c.get? name).isSome

/-- The names in ascending order. -/
def names (c : Catalog) : List String :=
  c.entries.map (·.1)

/-- The relation of a name that has to be there. -/
def get (c : Catalog) (name : String) : Except Fault Relation :=
  match c.get? name with
  | some r => .ok r
  | none => .error (.noTable name)

/-- Puts an entry in the place of its name, over an entry of the same name. -/
def place (name : String) (r : Relation) : List (String × Relation) → List (String × Relation)
  | [] => [(name, r)]
  | (other, s) :: rest =>
    if name < other then (name, r) :: (other, s) :: rest
    else if name = other then (name, r) :: rest
    else (other, s) :: place name r rest

theorem mem_place {name : String} {r : Relation} {e : String × Relation}
    {entries : List (String × Relation)} (h : e ∈ place name r entries) :
    e = (name, r) ∨ e ∈ entries := by
  induction entries with
  | nil => exact Or.inl (List.mem_singleton.1 h)
  | cons first rest ih =>
    obtain ⟨other, s⟩ := first
    unfold place at h
    split at h
    · exact List.mem_cons.1 h
    · split at h
      · rcases List.mem_cons.1 h with h | h
        · exact Or.inl h
        · exact Or.inr (List.mem_cons_of_mem _ h)
      · rcases List.mem_cons.1 h with h | h
        · exact Or.inr (h ▸ List.mem_cons_self)
        · exact (ih h).imp_right (List.mem_cons_of_mem _)

theorem ascending_place (name : String) (r : Relation) {entries : List (String × Relation)}
    (h : Ascending entries) : Ascending (place name r entries) := by
  induction entries with
  | nil => exact List.pairwise_singleton _ _
  | cons first rest ih =>
    obtain ⟨other, s⟩ := first
    obtain ⟨hfirst, hrest⟩ := List.pairwise_cons.1 h
    unfold place
    split
    · next hlt =>
      refine List.pairwise_cons.2 ⟨fun e he => ?_, h⟩
      rcases List.mem_cons.1 he with rfl | he
      · exact hlt
      · exact String.lt_trans hlt (hfirst e he)
    · next hle =>
      split
      · next heq =>
        subst heq
        exact List.pairwise_cons.2 ⟨hfirst, hrest⟩
      · next hne =>
        refine List.pairwise_cons.2 ⟨fun e he => ?_, ih hrest⟩
        rcases mem_place he with rfl | he
        · apply Classical.byContradiction
          intro hnot
          exact hne (String.le_antisymm (String.not_lt.1 hnot) (String.not_lt.1 hle))
        · exact hfirst e he

/-- The catalog with a relation under a name. -/
def set (c : Catalog) (name : String) (r : Relation) : Catalog :=
  ⟨place name r c.entries, ascending_place name r c.ordered⟩

/-- The catalog without a name. -/
def erase (c : Catalog) (name : String) : Catalog :=
  ⟨c.entries.filter (·.1 != name), List.Pairwise.sublist List.filter_sublist c.ordered⟩

/-- Each name with the number of its rows. -/
def sizes (c : Catalog) : List (String × Nat) :=
  c.entries.map fun (name, r) => (name, r.rows.length)

/-! ## Actions -/

open Tabula.Action (check)

/-- Refuses the name of a relation that is there. -/
def checkNew (c : Catalog) (name : String) : Except Fault Unit :=
  if c.contains name then .error (.tableExists name) else .ok ()

/-- Adds a relation without rows for a table of a new name. -/
def addTable (t : Table) : Action Catalog Unit := do
  let c ← getThe Catalog
  check (c.checkNew t.name)
  modify (·.set t.name { table := t })

/-- The catalog with a relation without rows. -/
def create (c : Catalog) (t : Table) : Except Fault Catalog :=
  ((addTable t).reach c).map (·.1)

/-- Takes out what there is of a name, and gives the relation, which has to be there. -/
def removeTable (name : String) : Action Catalog Relation := do
  let c ← getThe Catalog
  modify (·.erase name)
  check (c.get name)

/-- The catalog without a relation that was there. -/
def drop (c : Catalog) (name : String) : Except Fault Catalog :=
  ((removeTable name).reach c).map (·.1)

/-- An action on the relation of a name, which has to be there.  What the action writes is written
to the catalog, whether it succeeds or fails. -/
def within {α : Type} (name : String) (a : Action Relation α) : Action Catalog α := do
  let c ← getThe Catalog
  let r ← check (c.get name)
  modify (·.set name (a.after r))
  let (_, x) ← check (a.reach r)
  return x

/-! ## Lemmas -/

theorem lookup_place (name : String) (r : Relation) (other : String)
    (entries : List (String × Relation)) :
    (place name r entries).lookup other =
      if other = name then some r else entries.lookup other := by
  induction entries with
  | nil => exact lookup_cons_ite name r other []
  | cons e rest ih =>
    obtain ⟨k, s⟩ := e
    unfold place
    split
    · rw [lookup_cons_ite]
    · split
      · next hk =>
        subst hk
        rw [lookup_cons_ite, lookup_cons_ite]
        by_cases h : other = name
        · rw [if_pos h, if_pos h]
        · rw [if_neg h, if_neg h, if_neg h]
      · next hk =>
        rw [lookup_cons_ite, lookup_cons_ite, ih]
        by_cases h : other = k
        · subst h
          rw [if_pos rfl, if_neg (Ne.symm hk), if_pos rfl]
        · rw [if_neg h, if_neg h]

theorem get?_set (c : Catalog) (name : String) (r : Relation) (other : String) :
    (c.set name r).get? other = if other = name then some r else c.get? other :=
  lookup_place name r other c.entries

theorem get?_erase (c : Catalog) (name other : String) :
    (c.erase name).get? other = if other = name then none else c.get? other :=
  lookup_filter_ne name other c.entries

/-- No name before all others is found. -/
theorem lookup_of_lt {name : String} {entries : List (String × Relation)}
    (h : ∀ e ∈ entries, name < e.1) : entries.lookup name = none := by
  cases hr : entries.lookup name with
  | none => rfl
  | some r => exact absurd (h _ (mem_of_lookup hr)) (String.lt_irrefl name)

theorem lookup_cons_of_lt {name : String} {first : String × Relation}
    {rest : List (String × Relation)} (hfirst : ∀ e ∈ rest, first.1 < e.1) (h : name < first.1) :
    (first :: rest).lookup name = none :=
  lookup_of_lt fun e he => by
    rcases List.mem_cons.1 he with rfl | he
    · exact h
    · exact String.lt_trans h (hfirst e he)

/-- Catalogs that find the same are the same. -/
@[ext] theorem ext {c d : Catalog} (h : ∀ name, c.get? name = d.get? name) : c = d := by
  obtain ⟨entries, hc⟩ := c
  obtain ⟨entries', hd⟩ := d
  unfold Catalog.get? at h
  congr 1
  dsimp only at h
  have hhead : ∀ (e : String × Relation) rest, List.lookup e.1 (e :: rest) = some e.2 :=
    fun e rest => by rw [lookup_cons_ite, if_pos rfl]
  induction entries generalizing entries' with
  | nil =>
    cases entries' with
    | nil => rfl
    | cons e rest =>
      have hsame := h e.1
      rw [hhead e rest] at hsame
      cases hsame
  | cons e rest ih =>
    cases entries' with
    | nil =>
      have hsame := h e.1
      rw [hhead e rest] at hsame
      cases hsame
    | cons e' rest' =>
      obtain ⟨hfirst, hrest⟩ := List.pairwise_cons.1 hc
      obtain ⟨hfirst', hrest'⟩ := List.pairwise_cons.1 hd
      -- neither name comes before the other, or it would be found in one list only
      have hname : e.1 = e'.1 := by
        refine String.le_antisymm (String.not_lt.1 fun hlt => ?_) (String.not_lt.1 fun hlt => ?_)
        · have hsame := h e'.1
          rw [hhead e' rest', lookup_cons_of_lt hfirst hlt] at hsame
          cases hsame
        · have hsame := h e.1
          rw [hhead e rest, lookup_cons_of_lt hfirst' hlt] at hsame
          cases hsame
      have hhere := h e.1
      rw [hhead e rest, hname, hhead e' rest'] at hhere
      obtain rfl : e = e' := Prod.ext hname (Option.some.inj hhere)
      congr 1
      refine ih hrest rest' hrest' fun other => ?_
      by_cases heq : other = e.1
      · rw [heq, lookup_of_lt hfirst, lookup_of_lt hfirst']
      · have hother := h other
        rwa [lookup_cons_ite, lookup_cons_ite, if_neg heq, if_neg heq] at hother

/-- The relation that a catalog holds, put into its place, changes nothing. -/
theorem set_get {c : Catalog} {name : String} {r : Relation} (h : c.get? name = some r) :
    c.set name r = c := by
  ext other
  rw [get?_set]
  split
  · next heq => rw [heq, h]
  · rfl

/-- To take out a name that is not there changes nothing. -/
theorem erase_of_get?_eq_none {c : Catalog} {name : String} (h : c.get? name = none) :
    c.erase name = c := by
  ext other
  rw [get?_erase]
  split
  · next heq => rw [heq, h]
  · rfl

end Catalog

end Tabula
