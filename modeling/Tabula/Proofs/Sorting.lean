import Mathlib.Data.List.Forall2
import Tabula.Proofs.Grounding

/-!
# Sorted answers

ORDER BY sorts the rows of an answer by values that need not be among its cells: the first column in
which two rows differ decides, a descending column the other way round, and rows that differ in no
column keep their order.  `Layout.Before` and `Layout.Tied` say this of two rows, `Layout.Arranged`
of all of them; there is only one such arrangement.

The order of values is no order on all of them: NaN compares equal with every number, and a text
that reads as a number is not compared as other texts are.  `Value.Preordered` says that it is one
on the values that are to be sorted.

* `Value.Preordered.of_asDecimal?_eq_none`: values that do not read as numbers are in order.
* `Layout.compareValues_eq_lt`, `Layout.compareValues_eq_eq`: what the comparison of rows comes to.
* `Layout.Arranged.unique`: rows can be arranged in one way only.
* `Layout.frames_arranged`: the rows that an answer writes are those that it was given, so arranged.
-/

namespace Tabula

/-! ## Algorithm -/

/-- The order of ORDER BY is a total preorder on some values. -/
structure Value.Preordered (values : List Value) : Prop where
  swap : ∀ a ∈ values, ∀ b ∈ values, a.compareForSort b = (b.compareForSort a).swap
  trans : ∀ a ∈ values, ∀ b ∈ values, ∀ c ∈ values, a.compareForSort b ≠ .gt →
    b.compareForSort c ≠ .gt → a.compareForSort c ≠ .gt

instance Value.decidablePreordered (values : List Value) : Decidable (Value.Preordered values) :=
  decidable_of_iff
    ((∀ a ∈ values, ∀ b ∈ values, a.compareForSort b = (b.compareForSort a).swap) ∧
      ∀ a ∈ values, ∀ b ∈ values, ∀ c ∈ values, a.compareForSort b ≠ .gt →
        b.compareForSort c ≠ .gt → a.compareForSort c ≠ .gt)
    ⟨fun h => ⟨h.1, h.2⟩, fun h => ⟨h.swap, h.trans⟩⟩

/-- What a value is sorted by that does not read as a number: a null comes before every text. -/
def Value.sortText? (v : Value) : Option String :=
  if v.isNull then none else some v.canonical

/-- The order of two values in a column to sort by. -/
def SortColumn.order (c : SortColumn) (a b : Value) : Ordering :=
  if c.descending then (a.compareForSort b).swap else a.compareForSort b

namespace Layout

/-- A row comes before another by the values to sort by: in the first column in which they differ it
does. -/
inductive Before : List SortColumn → List Value → List Value → Prop where
  | first {c : SortColumn} {columns : List SortColumn} {a b : Value} {as bs : List Value} :
      c.order a b = .lt → Before (c :: columns) (a :: as) (b :: bs)
  | later {c : SortColumn} {columns : List SortColumn} {a b : Value} {as bs : List Value} :
      c.order a b = .eq → Before columns as bs → Before (c :: columns) (a :: as) (b :: bs)

/-- Two rows differ in no value to sort by. -/
inductive Tied : List SortColumn → List Value → List Value → Prop where
  | nil : Tied [] [] []
  | cons {c : SortColumn} {columns : List SortColumn} {a b : Value} {as bs : List Value} :
      c.order a b = .eq → Tied columns as bs → Tied (c :: columns) (a :: as) (b :: bs)

/-- What a record is written as: the values to sort it by, and its cells. -/
structure Writes (l : Layout) (r : Record) (row : List Value × List String) : Prop where
  values : row.1.map some = l.sort.map fun c => r.get? c.key
  cells : row.2.map some = l.keys.map fun key => (r.get? key).map (·.canonical)

/-- Rows, each with the place at which it was found, in the order in which they are to be written:
by the values to sort by, and by their places where these are tied. -/
structure Arranged (l : Layout) (found : List (List Value × List String))
    (rows : List ((List Value × List String) × Nat)) : Prop where
  perm : rows.Perm found.zipIdx
  sorted : rows.Pairwise fun a b =>
    Before l.sort a.1.1 b.1.1 ∨ Tied l.sort a.1.1 b.1.1 ∧ a.2 < b.2

/-- The comparison of rows is a total preorder on some rows. -/
structure Ordered (l : Layout) (found : List (List Value × List String)) : Prop where
  width : ∀ a ∈ found, a.1.length = l.sort.length
  swap : ∀ a ∈ found, ∀ b ∈ found,
    compareValues l.sort a.1 b.1 = (compareValues l.sort b.1 a.1).swap
  trans : ∀ a ∈ found, ∀ b ∈ found, ∀ d ∈ found, compareValues l.sort a.1 b.1 ≠ .gt →
    compareValues l.sort b.1 d.1 ≠ .gt → compareValues l.sort a.1 d.1 ≠ .gt

/-- Whether one of some rows may stand before another. -/
def precedesAmong (l : Layout) {found : List (List Value × List String)}
    (a b : { row // row ∈ found }) : Bool :=
  l.precedes a.1 b.1

/-- Rows in the order in which they are to be written, each with the place at which it was found. -/
def arranged (l : Layout) (found : List (List Value × List String)) :
    List ((List Value × List String) × Nat) :=
  found.zipIdx.mergeSort (List.zipIdxLE l.precedes)

end Layout

/-! ## Lemmas -/

instance Record.decidableHas (r : Record) (keys : List String) : Decidable (r.Has keys) :=
  decidable_of_iff (∀ key ∈ keys, (r.get? key).isSome = true)
    ⟨fun h key hkey => Option.isSome_iff_exists.1 (h key hkey),
      fun h key hkey => Option.isSome_iff_exists.2 (h key hkey)⟩

/-! ### Comparing values -/

theorem Value.compareForSort_of_asDecimal?_eq_none {a : Value} (h : a.asDecimal? = none)
    (b : Value) : a.compareForSort b = compare a.sortText? b.sortText? := by
  cases a <;> cases b <;> first | rfl | (simp only [compareForSort, h]; rfl)

/-- The order of ORDER BY is one on nulls and all values that do not read as numbers. -/
theorem Value.Preordered.of_asDecimal?_eq_none {values : List Value}
    (h : ∀ v ∈ values, v.asDecimal? = none) : Value.Preordered values where
  swap a ha b hb := by
    rw [compareForSort_of_asDecimal?_eq_none (h a ha),
      compareForSort_of_asDecimal?_eq_none (h b hb)]
    exact Std.OrientedCmp.eq_swap
  trans a ha b hb c hc hab hbc := by
    rw [compareForSort_of_asDecimal?_eq_none (h a ha), ne_eq, ← Ordering.isLE_iff_ne_gt] at hab ⊢
    rw [compareForSort_of_asDecimal?_eq_none (h b hb), ne_eq, ← Ordering.isLE_iff_ne_gt] at hbc
    exact Std.TransCmp.isLE_trans hab hbc

namespace SortColumn

variable {c : SortColumn} {values : List Value}

theorem order_swap (h : Value.Preordered values) {a b : Value} (ha : a ∈ values) (hb : b ∈ values) :
    c.order a b = (c.order b a).swap := by
  unfold order
  split
  · rw [h.swap a ha b hb]
  · exact h.swap a ha b hb

theorem order_trans (h : Value.Preordered values) {a b d : Value} (ha : a ∈ values)
    (hb : b ∈ values) (hd : d ∈ values) (hab : c.order a b ≠ .gt) (hbd : c.order b d ≠ .gt) :
    c.order a d ≠ .gt := by
  unfold order at hab hbd ⊢
  split at hab
  · next hdescending =>
    -- the other way round it is the order from the last value to the first
    rw [if_pos hdescending] at hbd ⊢
    rw [← h.swap _ hb _ ha] at hab
    rw [← h.swap _ hd _ hb] at hbd
    rw [← h.swap _ hd _ ha]
    exact h.trans d hd b hb a ha hbd hab
  · next hascending =>
    rw [if_neg hascending] at hbd ⊢
    exact h.trans a ha b hb d hd hab hbd

/-- What comes before a value comes before all that do not come before this value. -/
theorem order_lt_of_lt (h : Value.Preordered values) {a b d : Value} (ha : a ∈ values)
    (hb : b ∈ values) (hd : d ∈ values) (hab : c.order a b = .lt) (hbd : c.order b d ≠ .gt) :
    c.order a d = .lt := by
  have had := order_trans h ha hb hd (by rw [hab]; decide) hbd
  cases hcase : c.order a d with
  | lt => rfl
  | gt => exact absurd hcase had
  | eq =>
    have hda : c.order d a ≠ .gt := by rw [order_swap h hd ha, hcase]; decide
    have hba := order_trans h hb hd ha hbd hda
    rw [order_swap h hb ha, hab] at hba
    exact absurd rfl hba

/-- What does not come after a value comes before all that the value comes before. -/
theorem order_lt_of_le (h : Value.Preordered values) {a b d : Value} (ha : a ∈ values)
    (hb : b ∈ values) (hd : d ∈ values) (hab : c.order a b ≠ .gt) (hbd : c.order b d = .lt) :
    c.order a d = .lt := by
  have had := order_trans h ha hb hd hab (by rw [hbd]; decide)
  cases hcase : c.order a d with
  | lt => rfl
  | gt => exact absurd hcase had
  | eq =>
    have hda : c.order d a ≠ .gt := by rw [order_swap h hd ha, hcase]; decide
    have hdb := order_trans h hd ha hb hda hab
    rw [order_swap h hd hb, hbd] at hdb
    exact absurd rfl hdb

end SortColumn

/-! ### Comparing rows -/

namespace Layout

variable {columns : List SortColumn} {values : SortColumn → List Value}

theorem compareValues_cons (c : SortColumn) (columns : List SortColumn) (a b : Value)
    (as bs : List Value) :
    compareValues (c :: columns) (a :: as) (b :: bs) =
      (c.order a b).then (compareValues columns as bs) := rfl

theorem compareValues_eq_lt :
    ∀ {columns : List SortColumn} {as bs : List Value},
      compareValues columns as bs = .lt ↔ Before columns as bs := by
  intro columns
  induction columns with
  | nil => intro as bs; exact ⟨nofun, nofun⟩
  | cons c rest ih =>
    intro as bs
    cases as with
    | nil => exact ⟨nofun, nofun⟩
    | cons a as =>
      cases bs with
      | nil => exact ⟨nofun, nofun⟩
      | cons b bs =>
        rw [compareValues_cons, Ordering.then_eq_lt, ih]
        constructor
        · rintro (hlt | ⟨heq, hlater⟩)
          · exact .first hlt
          · exact .later heq hlater
        · rintro (hlt | ⟨heq, hlater⟩)
          · exact .inl hlt
          · exact .inr ⟨heq, hlater⟩

theorem compareValues_eq_eq :
    ∀ {columns : List SortColumn} {as bs : List Value}, as.length = columns.length →
      bs.length = columns.length → (compareValues columns as bs = .eq ↔ Tied columns as bs) := by
  intro columns
  induction columns with
  | nil =>
    intro as bs has hbs
    obtain rfl := List.length_eq_zero_iff.1 has
    obtain rfl := List.length_eq_zero_iff.1 hbs
    exact ⟨fun _ => .nil, fun _ => rfl⟩
  | cons c rest ih =>
    intro as bs has hbs
    obtain ⟨a, as, rfl⟩ := List.exists_cons_of_length_eq_add_one has
    obtain ⟨b, bs, rfl⟩ := List.exists_cons_of_length_eq_add_one hbs
    rw [compareValues_cons, Ordering.then_eq_eq, ih (Nat.succ.inj has) (Nat.succ.inj hbs)]
    exact ⟨fun ⟨heq, htied⟩ => .cons heq htied, fun | .cons heq htied => ⟨heq, htied⟩⟩

theorem Tied.widths {as bs : List Value} (h : Tied columns as bs) :
    as.length = columns.length ∧ bs.length = columns.length := by
  induction h with
  | nil => exact ⟨rfl, rfl⟩
  | cons _ _ ih => exact ⟨congrArg (· + 1) ih.1, congrArg (· + 1) ih.2⟩

instance decidableBefore (columns : List SortColumn) (as bs : List Value) :
    Decidable (Before columns as bs) :=
  decidable_of_iff _ compareValues_eq_lt

instance decidableTied (columns : List SortColumn) (as bs : List Value) :
    Decidable (Tied columns as bs) :=
  decidable_of_iff
    ((as.length = columns.length ∧ bs.length = columns.length) ∧ compareValues columns as bs = .eq)
    ⟨fun h => (compareValues_eq_eq h.1.1 h.1.2).1 h.2,
      fun h => ⟨h.widths, (compareValues_eq_eq h.widths.1 h.widths.2).2 h⟩⟩

instance decidableArranged (l : Layout) (found : List (List Value × List String))
    (rows : List ((List Value × List String) × Nat)) : Decidable (l.Arranged found rows) :=
  decidable_of_iff
    (rows.Perm found.zipIdx ∧ rows.Pairwise fun a b =>
      Before l.sort a.1.1 b.1.1 ∨ Tied l.sort a.1.1 b.1.1 ∧ a.2 < b.2)
    ⟨fun h => ⟨h.1, h.2⟩, fun h => ⟨h.perm, h.sorted⟩⟩

/-- The comparison of rows turns round with its sides. -/
theorem compareValues_swap :
    ∀ {columns : List SortColumn}, (∀ c ∈ columns, Value.Preordered (values c)) →
      ∀ {as bs : List Value}, List.Forall₂ (fun c v => v ∈ values c) columns as →
        List.Forall₂ (fun c v => v ∈ values c) columns bs →
        compareValues columns as bs = (compareValues columns bs as).swap := by
  intro columns
  induction columns with
  | nil =>
    intro _ as bs has hbs
    rfl
  | cons c rest ih =>
    intro h as bs has hbs
    cases has with
    | cons ha has =>
      cases hbs with
      | cons hb hbs =>
        rw [compareValues_cons, compareValues_cons, Ordering.swap_then,
          SortColumn.order_swap (h c List.mem_cons_self) ha hb,
          ih (fun c' hc' => h c' (List.mem_cons_of_mem _ hc')) has hbs]

theorem compareValues_trans :
    ∀ {columns : List SortColumn}, (∀ c ∈ columns, Value.Preordered (values c)) →
      ∀ {as bs ds : List Value}, List.Forall₂ (fun c v => v ∈ values c) columns as →
        List.Forall₂ (fun c v => v ∈ values c) columns bs →
        List.Forall₂ (fun c v => v ∈ values c) columns ds →
        compareValues columns as bs ≠ .gt → compareValues columns bs ds ≠ .gt →
        compareValues columns as ds ≠ .gt := by
  intro columns
  induction columns with
  | nil =>
    intro _ as bs ds has hbs hds hab hbd
    exact nofun
  | cons c rest ih =>
    intro h as bs ds has hbs hds hab hbd
    cases has with
    | @cons _ a _ as ha has =>
      cases hbs with
      | @cons _ b _ bs hb hbs =>
        cases hds with
        | @cons _ d _ ds hd hds =>
          have hc := h c List.mem_cons_self
          have ih := ih (fun c' hc' => h c' (List.mem_cons_of_mem _ hc')) has hbs hds
          rw [compareValues_cons, ne_eq, Ordering.then_eq_gt, not_or, not_and] at hab hbd ⊢
          obtain ⟨hab, hab'⟩ := hab
          obtain ⟨hbd, hbd'⟩ := hbd
          refine ⟨SortColumn.order_trans hc ha hb hd hab hbd, fun had => ?_⟩
          -- values that are equal at the ends are equal in between
          have heq : c.order a b = .eq := by
            cases hcase : c.order a b with
            | gt => exact absurd hcase hab
            | lt =>
              rw [SortColumn.order_lt_of_lt hc ha hb hd hcase hbd] at had
              cases had
            | eq => rfl
          have heq' : c.order b d = .eq := by
            cases hcase : c.order b d with
            | gt => exact absurd hcase hbd
            | lt =>
              rw [SortColumn.order_lt_of_le hc ha hb hd hab hcase] at had
              cases had
            | eq => rfl
          exact ih (hab' heq) (hbd' heq')

/-! ### Writing records -/

theorem values_of_has {r : Record} :
    ∀ {keys : List String}, r.Has keys →
      ∃ vs, Layout.values r keys = .ok vs ∧ vs.map some = keys.map r.get? := by
  intro keys
  induction keys with
  | nil => intro _; exact ⟨[], rfl, rfl⟩
  | cons key rest ih =>
    intro h
    obtain ⟨v, hv⟩ := h key List.mem_cons_self
    obtain ⟨vs, hvs, hmap⟩ := ih fun key' hkey' => h key' (List.mem_cons_of_mem _ hkey')
    refine ⟨v :: vs, ?_, ?_⟩
    · rw [Layout.values, Record.get_of_get? hv, ok_bind, hvs]
      rfl
    · rw [List.map_cons, List.map_cons, hv, hmap]

variable {l : Layout}

theorem project_of_has {r : Record} (h : r.Has (Answer.cells l).keys) :
    ∃ row, l.project r = .ok row ∧ l.Writes r row := by
  obtain ⟨cells, hcells, hcellsMap⟩ := values_of_has h.of_append
  obtain ⟨vs, hvs, hvsMap⟩ := values_of_has fun key hkey => h key (List.mem_append_right _ hkey)
  refine ⟨(vs, cells.map (·.canonical)), ?_, ⟨?_, ?_⟩⟩
  · rw [project, hcells, ok_bind, hvs]
    rfl
  · rw [hvsMap, List.map_map]
    rfl
  · have hmap := congrArg (List.map (Option.map Value.canonical)) hcellsMap
    rw [List.map_map, List.map_map] at hmap
    rw [List.map_map]
    exact hmap

theorem mapRecords_of_has {records : List Record}
    (h : ∀ r ∈ records, r.Has (Answer.cells l).keys) :
    ∃ found, mapRecords l.project none records = (found, none) ∧
      List.Forall₂ l.Writes records found := by
  induction records with
  | nil => exact ⟨[], rfl, .nil⟩
  | cons r rest ih =>
    obtain ⟨row, hrow, hwrites⟩ := project_of_has (h r List.mem_cons_self)
    obtain ⟨found, hfound, hall⟩ := ih fun r' hr' => h r' (List.mem_cons_of_mem _ hr')
    refine ⟨row :: found, ?_, .cons hwrites hall⟩
    rw [mapRecords, hrow, hfound]

/-- The values to sort by are values that the records have there. -/
theorem Writes.mem {records : List Record} {r : Record} {row : List Value × List String}
    (h : l.Writes r row) (hr : r ∈ records) :
    List.Forall₂ (fun c v => v ∈ records.filterMap (·.get? c.key)) l.sort row.1 := by
  obtain ⟨vs, cells⟩ := row
  have hvalues : vs.map some = l.sort.map fun c => r.get? c.key := h.values
  show List.Forall₂ _ l.sort vs
  clear h
  generalize l.sort = columns at hvalues ⊢
  induction columns generalizing vs with
  | nil =>
    obtain rfl := List.map_eq_nil_iff.1 hvalues
    exact .nil
  | cons c rest ih =>
    obtain ⟨v, vs, rfl, hv, hvs⟩ := List.map_eq_cons_iff.1 hvalues
    exact .cons (List.mem_filterMap.2 ⟨r, hr, hv.symm⟩) (ih vs hvs)

/-- A record is written in one way only. -/
theorem Writes.unique {records : List Record} {found found' : List (List Value × List String)}
    (h : List.Forall₂ l.Writes records found) (h' : List.Forall₂ l.Writes records found') :
    found = found' := by
  induction h generalizing found' with
  | nil =>
    cases h'
    rfl
  | cons hwrites _ ih =>
    cases h' with
    | cons hwrites' h' =>
      have hvalues := hwrites.values.trans hwrites'.values.symm
      have hcells := hwrites.cells.trans hwrites'.cells.symm
      rw [List.map_inj_right fun _ _ => Option.some.inj] at hvalues hcells
      rw [ih h', Prod.ext hvalues hcells]

theorem Writes.mem_of_forall₂ {records all : List Record}
    {found : List (List Value × List String)} (h : List.Forall₂ l.Writes records found)
    (hall : ∀ r ∈ records, r ∈ all) : ∀ row ∈ found,
      List.Forall₂ (fun c v => v ∈ all.filterMap (·.get? c.key)) l.sort row.1 := by
  induction h with
  | nil => exact nofun
  | cons hwrites _ ih =>
    intro row hrow
    rcases List.mem_cons.1 hrow with rfl | hrow
    · exact hwrites.mem (hall _ List.mem_cons_self)
    · exact ih (fun r hr => hall r (List.mem_cons_of_mem _ hr)) row hrow

/-! ### Arranging rows -/

variable {found : List (List Value × List String)}

theorem Ordered.of_forall₂ (hvalues : ∀ c ∈ l.sort, Value.Preordered (values c))
    (h : ∀ row ∈ found, List.Forall₂ (fun c v => v ∈ values c) l.sort row.1) :
    l.Ordered found where
  width a ha := (h a ha).length_eq.symm
  swap a ha b hb := compareValues_swap hvalues (h a ha) (h b hb)
  trans a ha b hb d hd := compareValues_trans hvalues (h a ha) (h b hb) (h d hd)

namespace Ordered

/-- Of two rows not both come before the other. -/
theorem asymm (h : l.Ordered found) {a b : (List Value × List String) × Nat} (ha : a.1 ∈ found)
    (hb : b.1 ∈ found)
    (hab : Before l.sort a.1.1 b.1.1 ∨ Tied l.sort a.1.1 b.1.1 ∧ a.2 < b.2)
    (hba : Before l.sort b.1.1 a.1.1 ∨ Tied l.sort b.1.1 a.1.1 ∧ b.2 < a.2) : False := by
  have hswap := h.swap _ ha _ hb
  rw [← compareValues_eq_lt, ← compareValues_eq_eq (h.width _ ha) (h.width _ hb)] at hab
  rw [← compareValues_eq_lt, ← compareValues_eq_eq (h.width _ hb) (h.width _ ha)] at hba
  rcases hab with hab | ⟨hab, hlt⟩
  · rcases hba with hba | ⟨hba, -⟩
    · rw [hab, hba] at hswap
      cases hswap
    · rw [hab, hba] at hswap
      cases hswap
  · rcases hba with hba | ⟨-, hgt⟩
    · rw [hab, hba] at hswap
      cases hswap
    · exact absurd hgt (Nat.lt_asymm hlt)

/-- A row that may stand before another, and comes first where both may, comes before it. -/
theorem before_or_tied (h : l.Ordered found) {a b : (List Value × List String) × Nat}
    (ha : a.1 ∈ found) (hb : b.1 ∈ found) (hne : a.2 ≠ b.2)
    (hle : List.zipIdxLE l.precedes a b = true) :
    Before l.sort a.1.1 b.1.1 ∨ Tied l.sort a.1.1 b.1.1 ∧ a.2 < b.2 := by
  rw [← compareValues_eq_lt, ← compareValues_eq_eq (h.width _ ha) (h.width _ hb)]
  have hswap := h.swap _ hb _ ha
  cases hcase : compareValues l.sort a.1.1 b.1.1 with
  | lt => exact .inl rfl
  | gt =>
    rw [List.zipIdxLE, precedes, hcase] at hle
    cases hle
  | eq =>
    rw [hcase] at hswap
    rw [List.zipIdxLE, precedes, precedes, hcase, hswap] at hle
    exact .inr ⟨rfl, Nat.lt_of_le_of_ne (of_decide_eq_true hle) hne⟩

end Ordered

/-- Rows can be arranged in one way only. -/
theorem Arranged.unique (h : l.Ordered found)
    {rows rows' : List ((List Value × List String) × Nat)} (hrows : l.Arranged found rows)
    (hrows' : l.Arranged found rows') : rows = rows' := by
  refine List.Perm.eq_of_pairwise (fun a b ha hb hab hba => ?_) hrows.sorted hrows'.sorted
    (hrows.perm.trans hrows'.perm.symm)
  exact (h.asymm (List.fst_mem_of_mem_zipIdx (hrows.perm.mem_iff.1 ha))
    (List.fst_mem_of_mem_zipIdx (hrows'.perm.mem_iff.1 hb)) hab hba).elim

namespace Ordered

theorem precedes_total (h : l.Ordered found) (a b : { row // row ∈ found }) :
    (l.precedesAmong a b || l.precedesAmong b a) = true := by
  unfold precedesAmong precedes
  rw [h.swap _ a.2 _ b.2]
  cases compareValues l.sort b.1.1 a.1.1 <;> rfl

theorem precedes_trans (h : l.Ordered found) (a b d : { row // row ∈ found })
    (hab : l.precedesAmong a b = true) (hbd : l.precedesAmong b d = true) :
    l.precedesAmong a d = true := by
  rw [precedesAmong, precedes, bne_iff_ne] at hab hbd ⊢
  exact h.trans _ a.2 _ b.2 _ d.2 hab hbd

end Ordered

theorem arranged_perm (l : Layout) (found : List (List Value × List String)) :
    (l.arranged found).Perm found.zipIdx :=
  List.mergeSort_perm _ _

/-- Places tell rows apart. -/
theorem arranged_places (l : Layout) (found : List (List Value × List String)) :
    (l.arranged found).Pairwise fun a b => a.2 ≠ b.2 := by
  have hnodup : ((l.arranged found).map (·.2)).Nodup := by
    rw [((l.arranged_perm found).map _).nodup_iff, List.zipIdx_map_snd]
    exact List.nodup_range'
  exact List.pairwise_map.1 hnodup

/-- The comparison is an order on the rows that were found only, so these are sorted as such. -/
theorem arranged_eq (l : Layout) (found : List (List Value × List String)) :
    l.arranged found =
      (found.attach.zipIdx.mergeSort (List.zipIdxLE l.precedesAmong)).map (Prod.map (·.1) id) := by
  have hmap : found.zipIdx = found.attach.zipIdx.map (Prod.map (·.1) id) := by
    rw [← List.zipIdx_map, List.attach_map_subtype_val]
  rw [arranged, hmap]
  symm
  apply List.map_mergeSort
  intro a _ b _
  rfl

theorem Arranged.of_ordered (h : l.Ordered found) : l.Arranged found (l.arranged found) := by
  refine ⟨l.arranged_perm found, ?_⟩
  have hsorted := List.pairwise_mergeSort (List.zipIdxLE_trans h.precedes_trans)
    (List.zipIdxLE_total h.precedes_total) found.attach.zipIdx
  have hle : (l.arranged found).Pairwise fun a b => List.zipIdxLE l.precedes a b = true := by
    rw [arranged_eq, List.pairwise_map]
    exact hsorted
  refine (hle.and (l.arranged_places found)).imp_of_mem fun ha hb ⟨hle, hne⟩ => ?_
  have hmem := fun {a} (ha : a ∈ l.arranged found) =>
    List.fst_mem_of_mem_zipIdx ((l.arranged_perm found).mem_iff.1 ha)
  exact h.before_or_tied (hmem ha) (hmem hb) hne hle

/-- The rows that are written are the arranged ones. -/
theorem sorted_eq_arranged (l : Layout) (found : List (List Value × List String)) :
    l.sorted found = (l.arranged found).map (·.1.2) := by
  rw [sorted, ← List.mergeSort_zipIdx, List.map_map]
  rfl

/-! ## Top theorem -/

/-- The answer of a layout with columns to sort by, to records that have its keys: the header, a row
for each record, and the end.  The rows are those of the records, none lost and none twice; and
where the order of values is one on the values of each column to sort by, they stand in the only
arrangement by these values in which rows that differ in none of them keep their places. -/
theorem frames_arranged (l : Layout) (hsort : l.sort ≠ []) {records : List Record}
    (hkeys : ∀ r ∈ records, r.Has (Answer.cells l).keys) :
    ∃ (found : List (List Value × List String)) (rows : List (List String)),
      List.Forall₂ l.Writes records found ∧
        (Answer.cells l).frames records none =
          (.header l.header :: rows.map .row ++ [.done], none) ∧
        rows.Perm (found.map (·.2)) ∧
        ((∀ c ∈ l.sort, Value.Preordered (records.filterMap (·.get? c.key))) →
          ∃ arranged, l.Arranged found arranged ∧
            (∀ other, l.Arranged found other → other = arranged) ∧
            rows = arranged.map (·.1.2)) := by
  obtain ⟨found, hfound, hwrites⟩ := mapRecords_of_has hkeys
  refine ⟨found, l.sorted found, hwrites, ?_, (List.mergeSort_perm _ _).map _, fun hvalues => ?_⟩
  · rw [Answer.frames, hfound]
    have hnonempty : l.sort.isEmpty = false := by
      rw [List.isEmpty_eq_false_iff]
      exact hsort
    dsimp only
    rw [hnonempty]
    rfl
  · have hordered := Ordered.of_forall₂ hvalues
      (Writes.mem_of_forall₂ hwrites fun r hr => hr)
    exact ⟨l.arranged found, .of_ordered hordered,
      fun other hother => hother.unique hordered (.of_ordered hordered),
      l.sorted_eq_arranged found⟩

/-- A column that is not shown, sorted by the other way round: ties keep their places, and the null
comes last. -/
theorem frames_arranged_of_ties :
    let l : Layout := ⟨["n"], ["t.n"], [⟨"t.k", true⟩, ⟨"t.m", false⟩]⟩
    let records : List Record := [⟨[("t.n", .integer 1), ("t.k", .null), ("t.m", .text "x")]⟩,
      ⟨[("t.n", .integer 2), ("t.k", .text "b"), ("t.m", .text "y")]⟩,
      ⟨[("t.n", .integer 3), ("t.k", .text "c"), ("t.m", .text "y")]⟩,
      ⟨[("t.n", .integer 4), ("t.k", .text "b"), ("t.m", .text "y")]⟩,
      ⟨[("t.n", .integer 5), ("t.k", .text "b"), ("t.m", .null)]⟩]
    (Answer.cells l).frames records none =
      ([.header ["n"], .row ["3"], .row ["5"], .row ["2"], .row ["4"], .row ["1"], .done],
        none) := by
  intro l records
  have hkeys : ∀ r ∈ records, r.Has (Answer.cells l).keys := by decide +kernel
  obtain ⟨found, rows, hwrites, hframes, -, hordered⟩ := frames_arranged l (by decide) hkeys
  obtain ⟨arranged, -, hunique, hrows⟩ := hordered (by decide +kernel)
  obtain rfl : found = [([.null, .text "x"], ["1"]), ([.text "b", .text "y"], ["2"]),
      ([.text "c", .text "y"], ["3"]), ([.text "b", .text "y"], ["4"]),
      ([.text "b", .null], ["5"])] := by
    refine Writes.unique hwrites ?_
    repeat' constructor
  obtain rfl := hunique [(([.text "c", .text "y"], ["3"]), 2), (([.text "b", .null], ["5"]), 4),
    (([.text "b", .text "y"], ["2"]), 1), (([.text "b", .text "y"], ["4"]), 3),
    (([.null, .text "x"], ["1"]), 0)] (by decide +kernel)
  rw [hframes, hrows]
  rfl

end Layout

end Tabula
