import Tabula.Proofs.Binding

/-!
# Names that have points in them

A key is the name of a table, a point and the name of a column.  A quoted name may have points of
its own, and then a key can be read in more than one way: the column `c` of a table `a.b` has the
key of the column `b.c` of a table `a`.  `NamesMixed` says when.  Such columns share a place in the
record.

An ON equality is turned by its keys.  What its left side is resolved to is taken for a column of
the joined table if the key can be read so; it is not asked whether the reference means that table.
So an equality whose left side names the joined table is always turned rightly, and one whose right
side does only where the key of the left one cannot be read so.

* `Join.Relates.orient_right_iff`, `Join.Relates.orient_mixed`: whether an equality is turned
  rightly, and what becomes of one that is not.
* `Scope.names_apart`: which columns share a key, and how ON equalities are turned.
-/

namespace Tabula

/-! ## Algorithm -/

/-- Of two references, `own` means the column at place `q` of the joined table, and `other` a column
of another table in scope. -/
structure Join.Relates (sources : List Source) (j : Join) (t : Table) (own other : ColumnRef)
    (q : Nat) (s : Source) : Prop where
  own : ∃ place rows, sources[place]? = some ⟨j.table, t.columnNames, rows⟩ ∧
    place? sources own = some (place, q)
  other : ∃ place q', sources[place]? = some s ∧ place? sources other = some (place, q')
  name : s.name ≠ j.table

/-! ## Lemmas -/

/-- References that mean columns of one source mean the same one if they name the same. -/
theorem place?_name_iff {sources : List Source} {ref ref' : ColumnRef} {i q q' : Nat}
    (h : place? sources ref = some (i, q)) (h' : place? sources ref' = some (i, q')) :
    q = q' ↔ ref.name = ref'.name := by
  obtain ⟨s, hs, hq, -⟩ := place?_eq_some h
  obtain ⟨s', hs', hq', -⟩ := place?_eq_some h'
  obtain rfl := Option.some.inj (hs.symm.trans hs')
  constructor
  · rintro rfl
    obtain ⟨hlt, hname, -⟩ := List.findIdx?_eq_some_iff_getElem.1 hq
    obtain ⟨hlt', hname', -⟩ := List.findIdx?_eq_some_iff_getElem.1 hq'
    exact (beq_iff_eq.1 hname).symm.trans (beq_iff_eq.1 hname')
  · intro hname
    rw [hname, hq'] at hq
    exact (Option.some.inj hq).symm

namespace Join.Relates

variable {sources : List Source} {j : Join} {t : Table} {own other : ColumnRef} {q : Nat}
  {s : Source} (h : j.Relates sources t own other q s)
  (hnames : (sources.map (·.name)).Nodup)
include h

/-- The column of the joined table stands at its place. -/
theorem require : t.require own.name = .ok q := by
  obtain ⟨place, rows, hplace, hown⟩ := h.own
  obtain ⟨s', hs', hcolumn, -⟩ := place?_eq_some hown
  obtain rfl := Option.some.inj (hplace.symm.trans hs')
  exact OnEquality.require_of_columnNames hcolumn

/-- A key of the other table can be read as one of the joined table if the names are mixed up. -/
theorem key_eq_iff {c w : String} :
    columnKey s.name c = columnKey j.table w ↔ NamesMixed s.name c j.table w := by
  rw [columnKey_eq_iff, or_iff_right fun hsame => h.name hsame.1]

include hnames

theorem resolve_own :
    (Scope.mk (Source.listed sources)).resolve own = .ok (columnKey j.table own.name) := by
  obtain ⟨place, rows, hplace, hown⟩ := h.own
  obtain ⟨s', hs', -, hresolve⟩ := Scope.resolve_of_place? hnames hown
  obtain rfl := Option.some.inj (hplace.symm.trans hs')
  exact hresolve

theorem resolve_other :
    (Scope.mk (Source.listed sources)).resolve other = .ok (columnKey s.name other.name) := by
  obtain ⟨place, q', hplace, hother⟩ := h.other
  obtain ⟨s', hs', -, hresolve⟩ := Scope.resolve_of_place? hnames hother
  obtain rfl := Option.some.inj (hplace.symm.trans hs')
  exact hresolve

/-- With the joined table on the left an equality is turned rightly. -/
theorem orient_left (hleft : j.left = own) (hright : j.right = other) :
    OnEquality.orient j t ⟨Source.listed sources⟩ = .ok ⟨q, columnKey s.name other.name⟩ := by
  subst hleft hright
  rw [OnEquality.orient_left (h.resolve_own hnames) (h.resolve_other hnames), h.require]
  rfl

/-- With the joined table on the right an equality is turned rightly, if the names are not mixed
up. -/
theorem orient_right (hleft : j.left = other) (hright : j.right = own)
    (hmixed : ∀ w, ¬NamesMixed s.name other.name j.table w) :
    OnEquality.orient j t ⟨Source.listed sources⟩ = .ok ⟨q, columnKey s.name other.name⟩ := by
  subst hleft hright
  rw [OnEquality.orient_right (h.resolve_other hnames) (fun w => mt h.key_eq_iff.1 (hmixed w))
    (h.resolve_own hnames), h.require]
  rfl

/-- Where the names are mixed up, the left side is taken for a column of the joined table. -/
theorem orient_mixed (hleft : j.left = other) (hright : j.right = own) {w : String}
    (hmixed : NamesMixed s.name other.name j.table w) :
    OnEquality.orient j t ⟨Source.listed sources⟩ =
      (⟨·, columnKey j.table own.name⟩) <$> t.require w := by
  subst hleft hright
  have hother := h.resolve_other hnames
  rw [h.key_eq_iff.2 hmixed] at hother
  exact OnEquality.orient_left hother (h.resolve_own hnames)

/-- With the joined table on the right an equality is turned rightly exactly if the left side can be
taken for no column of the joined table but the one on the right. -/
theorem orient_right_iff (hleft : j.left = other) (hright : j.right = own) :
    OnEquality.orient j t ⟨Source.listed sources⟩ = .ok ⟨q, columnKey s.name other.name⟩ ↔
      ∀ w, NamesMixed s.name other.name j.table w → w = own.name := by
  constructor
  · intro horient w hmixed
    rw [h.orient_mixed hnames hleft hright hmixed] at horient
    cases hw : t.require w with
    | error f =>
      rw [hw] at horient
      cases horient
    | ok k =>
      rw [hw] at horient
      have hkey : columnKey j.table own.name = columnKey s.name other.name :=
        (OnEquality.mk.inj (Except.ok.inj horient)).2
      exact (columnKey_column_inj (hkey.trans (h.key_eq_iff.2 hmixed))).symm
  · intro hsole
    by_cases hmixed : NamesMixed s.name other.name j.table own.name
    · rw [h.orient_mixed hnames hleft hright hmixed, h.require, h.key_eq_iff.2 hmixed]
      rfl
    · refine h.orient_right hnames hleft hright fun w hw => hmixed ?_
      rwa [hsole w hw] at hw

end Join.Relates

/-- References have one key if they mean the same column, or columns whose names are mixed up. -/
theorem Scope.resolve_eq_iff {sources : List Source} (hnames : (sources.map (·.name)).Nodup)
    {ref ref' : ColumnRef} {i q i' q' : Nat} {s s' : Source}
    (h : place? sources ref = some (i, q)) (h' : place? sources ref' = some (i', q'))
    (hs : sources[i]? = some s) (hs' : sources[i']? = some s') :
    columnKey s.name ref.name = columnKey s'.name ref'.name ↔
      (i, q) = (i', q') ∨ NamesMixed s.name ref.name s'.name ref'.name := by
  have hsame : s.name = s'.name ∧ ref.name = ref'.name ↔ (i, q) = (i', q') := by
    rw [Prod.mk.injEq]
    constructor
    · rintro ⟨hname, hcolumn⟩
      have hi : (sources.map (·.name))[i]? = some s.name := by simp [hs]
      have hi' : (sources.map (·.name))[i']? = some s.name := by simp [hs', hname]
      obtain rfl := (List.getElem?_inj (List.getElem?_eq_some_iff.1 hi).1 hnames).1
        (hi.trans hi'.symm)
      exact ⟨rfl, (place?_name_iff h h').2 hcolumn⟩
    · rintro ⟨rfl, rfl⟩
      obtain rfl := Option.some.inj (hs.symm.trans hs')
      exact ⟨rfl, (place?_name_iff h h').1 rfl⟩
  rw [columnKey_eq_iff, hsame]

/-! ## Top theorem -/

/-- Let the tables in scope have different names.  References that are resolved have one key exactly
if they mean the same column, or columns whose names are mixed up.  An ON equality of a column of
the joined table and a column of another is turned rightly if the joined table is on the left; if it
is on the right, exactly if no other column of the joined table could be meant by the key of the
left.  If one could, that column is looked up in the joined table instead. -/
theorem Scope.names_apart {sources : List Source} (hnames : (sources.map (·.name)).Nodup) :
    (∀ (ref ref' : ColumnRef) (key key' : String),
      (Scope.mk (Source.listed sources)).resolve ref = .ok key →
      (Scope.mk (Source.listed sources)).resolve ref' = .ok key' →
      ∃ i q i' q' s s', place? sources ref = some (i, q) ∧ place? sources ref' = some (i', q') ∧
        sources[i]? = some s ∧ sources[i']? = some s' ∧
        key = columnKey s.name ref.name ∧ key' = columnKey s'.name ref'.name ∧
        (key = key' ↔ (i, q) = (i', q') ∨ NamesMixed s.name ref.name s'.name ref'.name)) ∧
    ∀ (j : Join) (t : Table) (own other : ColumnRef) (q : Nat) (s : Source),
      j.Relates sources t own other q s →
      (j.left = own → j.right = other →
        OnEquality.orient j t ⟨Source.listed sources⟩ =
          .ok ⟨q, columnKey s.name other.name⟩) ∧
      (j.left = other → j.right = own →
        (OnEquality.orient j t ⟨Source.listed sources⟩ =
            .ok ⟨q, columnKey s.name other.name⟩ ↔
          ∀ w, NamesMixed s.name other.name j.table w → w = own.name) ∧
        ∀ w, NamesMixed s.name other.name j.table w →
          (∀ k, t.position? w = some k →
            OnEquality.orient j t ⟨Source.listed sources⟩ =
              .ok ⟨k, columnKey j.table own.name⟩) ∧
          (t.position? w = none →
            OnEquality.orient j t ⟨Source.listed sources⟩ = .error (.noColumn t.name w))) := by
  refine ⟨fun ref ref' key key' hkey hkey' => ?_, fun j t own other q s h =>
    ⟨h.orient_left hnames, fun hleft hright => ⟨h.orient_right_iff hnames hleft hright,
      fun w hmixed => ⟨fun k hk => ?_, fun hnone => ?_⟩⟩⟩⟩
  · obtain ⟨⟨i, q⟩, hplace⟩ := (Scope.resolves_iff hnames).1 ⟨key, hkey⟩
    obtain ⟨⟨i', q'⟩, hplace'⟩ := (Scope.resolves_iff hnames).1 ⟨key', hkey'⟩
    obtain ⟨s, hs, -, hresolve⟩ := Scope.resolve_of_place? hnames hplace
    obtain ⟨s', hs', -, hresolve'⟩ := Scope.resolve_of_place? hnames hplace'
    obtain rfl := Except.ok.inj (hkey.symm.trans hresolve)
    obtain rfl := Except.ok.inj (hkey'.symm.trans hresolve')
    exact ⟨i, q, i', q', s, s', hplace, hplace', hs, hs', rfl, rfl,
      Scope.resolve_eq_iff hnames hplace hplace' hs hs'⟩
  · rw [h.orient_mixed hnames hleft hright hmixed, Table.require_eq_ok.2 hk]
    rfl
  · rw [h.orient_mixed hnames hleft hright hmixed, Table.require_eq_error.2 ⟨hnone, rfl⟩]
    rfl

/-- A table `a` is joined to a table `a.b` on `a.x = "a.b".c`: the equality is turned rightly as it
stands, and refused the other way round, for a column `b.c` that nobody has named. -/
theorem Scope.names_apart_of_point :
    let sources : List Source := [⟨"a.b", ["c"], []⟩, ⟨"a", ["x"], []⟩]
    let t : Table := ⟨"a", [⟨"x", "text", false, false, false, none⟩]⟩
    let own : ColumnRef := ⟨some "a", "x"⟩
    let other : ColumnRef := ⟨some "a.b", "c"⟩
    (sources.map (·.name)).Nodup ∧ NamesMixed "a.b" "c" "a" "b.c" ∧
      OnEquality.orient ⟨"a", own, other⟩ t ⟨Source.listed sources⟩ = .ok ⟨0, "a.b.c"⟩ ∧
      OnEquality.orient ⟨"a", other, own⟩ t ⟨Source.listed sources⟩ =
        .error (.noColumn "a" "b.c") := by
  intro sources t own other
  have hnames : (sources.map (·.name)).Nodup := by decide
  have hmixed : NamesMixed "a.b" "c" "a" "b.c" := .inr ⟨"b", rfl, rfl⟩
  have hrelates (left right : ColumnRef) :
      Join.Relates sources ⟨"a", left, right⟩ t own other 0 ⟨"a.b", ["c"], []⟩ :=
    ⟨⟨1, [], rfl, by decide⟩, ⟨0, 0, rfl, by decide⟩, show "a.b" ≠ "a" by decide⟩
  obtain ⟨-, hturned⟩ := Scope.names_apart hnames
  obtain ⟨hrightly, -⟩ := hturned _ t own other 0 _ (hrelates own other)
  obtain ⟨-, hwrongly⟩ := hturned _ t own other 0 _ (hrelates other own)
  obtain ⟨-, hall⟩ := hwrongly rfl rfl
  exact ⟨hnames, hmixed, hrightly rfl rfl, (hall "b.c" hmixed).2 (by decide)⟩

/-- Names are not kept apart: two columns of different tables have one key, and an equality whose
right side names the joined table is not turned rightly. -/
theorem Scope.names_not_apart :
    (¬ ∀ (sources : List Source) (ref ref' : ColumnRef) (p p' : Nat × Nat) (key key' : String),
      (sources.map (·.name)).Nodup → (∀ s ∈ sources, s.columns.Nodup) →
      place? sources ref = some p → place? sources ref' = some p' → p ≠ p' →
      (Scope.mk (Source.listed sources)).resolve ref = .ok key →
      (Scope.mk (Source.listed sources)).resolve ref' = .ok key' → key ≠ key') ∧
    ¬ ∀ (sources : List Source) (j : Join) (t : Table) (own other : ColumnRef) (q : Nat)
        (s : Source),
      (sources.map (·.name)).Nodup → (∀ s ∈ sources, s.columns.Nodup) →
      j.Relates sources t own other q s →
      (j.left = own ∧ j.right = other ∨ j.left = other ∧ j.right = own) →
      OnEquality.orient j t ⟨Source.listed sources⟩ =
        .ok ⟨q, columnKey s.name other.name⟩ := by
  constructor
  · intro happart
    let sources : List Source := [⟨"a", ["b.c"], []⟩, ⟨"a.b", ["c"], []⟩]
    exact happart sources ⟨some "a", "b.c"⟩ ⟨some "a.b", "c"⟩ (0, 0) (1, 0) "a.b.c" "a.b.c"
      (by decide) (by decide) (by decide) (by decide) (by decide) (by decide) (by decide) rfl
  · intro hturned
    let sources : List Source := [⟨"a.b", ["c"], []⟩, ⟨"a", ["x"], []⟩]
    let t : Table := ⟨"a", [⟨"x", "text", false, false, false, none⟩]⟩
    have horient := hturned sources ⟨"a", ⟨some "a.b", "c"⟩, ⟨some "a", "x"⟩⟩ t ⟨some "a", "x"⟩
      ⟨some "a.b", "c"⟩ 0 ⟨"a.b", ["c"], []⟩ (by decide) (by decide)
      ⟨⟨1, [], by decide, by decide⟩, ⟨0, 0, by decide, by decide⟩, by decide⟩ (.inr ⟨rfl, rfl⟩)
    revert horient
    decide

end Tabula
