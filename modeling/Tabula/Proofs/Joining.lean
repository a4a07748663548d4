import Mathlib.Data.List.Forall2
import Tabula.Proofs.Agreement

/-!
# Nested loops over rows

A scan puts together the records of exactly the combinations that meet the ON equalities, in order
(`Scan.descend_covers`, `Scan.run_eq`).  The invariant is `Agrees`: the record that is carried along
agrees with the rows chosen so far, whatever older values it holds beside them.
-/

namespace Tabula

/-- A level reads the source at a place: it has its rows, and admits those that meet its ON
equality. -/
structure Level.Serves (sources : List Source) (place : Nat) (on : Option Join) (l : Level) :
    Prop where
  source : sources[place]? = some ⟨l.table, l.relation.table.columnNames, l.relation.rows⟩
  admits : ∀ (beginning : Combination) (row : Row) (r : Record), beginning.length = place →
    Fitting sources (beginning ++ [row]) → Agrees sources beginning r →
    l.admits r row = .ok (admitted sources (beginning ++ [row]) on)

/-- Levels read the sources one after the other, the first of them at a place. -/
inductive Serving (sources : List Source) : Nat → List Level → List (Source × Option Join) → Prop
  | nil {place : Nat} : Serving sources place [] []
  | cons {place : Nat} {l : Level} {on : Option Join} {levels : List Level}
      {steps : List (Source × Option Join)} :
      l.Serves sources place on → Serving sources (place + 1) levels steps →
      Serving sources place (l :: levels)
        ((⟨l.table, l.relation.table.columnNames, l.relation.rows⟩, on) :: steps)

theorem Serving.append {sources : List Source} {place : Nat} {levels levels' : List Level}
    {steps steps' : List (Source × Option Join)} (h : Serving sources place levels steps)
    (h' : Serving sources (place + levels.length) levels' steps') :
    Serving sources place (levels ++ levels') (steps ++ steps') := by
  induction h with
  | nil => exact h'
  | cons hl _ ih =>
    refine .cons hl (ih ?_)
    rwa [List.length_cons, Nat.add_comm _ 1, ← Nat.add_assoc] at h'

/-- A scan found the records of some combinations, in order, met no fault, and left a record that
agrees with the rows it began with. -/
structure Scan.Covers (sources : List Source) (beginning : Combination)
    (found : List Combination) (scan : Scan) : Prop where
  fault : scan.fault = none
  left : Agrees sources beginning scan.left
  records : List.Forall₂ (Agrees sources) found scan.records

/-- Every row of every source is as wide as its source. -/
def Source.Even (sources : List Source) : Prop :=
  ∀ s ∈ sources, ∀ row ∈ s.rows, row.length = s.columns.length

theorem Fitting.nil (sources : List Source) : Fitting sources [] := by
  intro i s row _ hrow
  simp at hrow

theorem Fitting.concat {sources : List Source} {beginning : Combination} {s : Source} {row : Row}
    (h : Fitting sources beginning) (hs : sources[beginning.length]? = some s)
    (hrow : row.length = s.columns.length) : Fitting sources (beginning ++ [row]) := by
  intro i s' row' hs' hrow'
  by_cases hi : i < beginning.length
  · rw [List.getElem?_append_left hi] at hrow'
    exact h i s' row' hs' hrow'
  · have hlen := (List.getElem?_eq_some_iff.1 hrow').1
    rw [List.length_append, List.length_singleton] at hlen
    obtain rfl : i = beginning.length := by omega
    rw [List.getElem?_append_right (Nat.le_refl _), Nat.sub_self] at hrow'
    obtain rfl := Option.some.inj hrow'
    obtain rfl := Option.some.inj (hs.symm.trans hs')
    exact hrow

namespace Scan

/-- Rows of a level are tried one after the other; what the first of them leave in the record does
not matter to the others. -/
theorem tryRows_covers {sources : List Source} (hsources : Source.Distinct sources)
    {beginning : Combination} {l : Level} {on : Option Join}
    (hl : l.Serves sources beginning.length on) (hfit : Fitting sources beginning)
    {inner : Record → Scan} {found : Combination → List Combination} (rows : List Row)
    (hrows : ∀ row ∈ rows, row.length = l.relation.table.columnNames.length)
    (hinner : ∀ row ∈ rows, ∀ r, Agrees sources (beginning ++ [row]) r →
      (inner r).Covers sources (beginning ++ [row]) (found (beginning ++ [row]))) :
    ∀ r, Agrees sources beginning r →
      (tryRows l inner rows r).Covers sources beginning
        (rows.flatMap fun row =>
          if admitted sources (beginning ++ [row]) on then found (beginning ++ [row]) else []) := by
  induction rows with
  | nil => intro r hr; exact ⟨rfl, hr, .nil⟩
  | cons row rest ih =>
    intro r hr
    have hrow := hrows row List.mem_cons_self
    have ih := ih (fun row' h => hrows row' (List.mem_cons_of_mem _ h))
      fun row' h => hinner row' (List.mem_cons_of_mem _ h)
    unfold tryRows
    rw [hl.admits beginning row r rfl (hfit.concat hl.source hrow) hr, List.flatMap_cons]
    cases hon : admitted sources (beginning ++ [row]) on with
    | false => exact ih r hr
    | true =>
      have hmerged : Agrees sources (beginning ++ [row]) (l.merge r row) :=
        hr.merge hsources hl.source row
      have hfirst := hinner row List.mem_cons_self _ hmerged
      have hothers := ih (inner (l.merge r row)).left hfirst.left.of_append
      dsimp only
      rw [hfirst.fault]
      refine ⟨hothers.fault, hothers.left, ?_⟩
      rw [if_pos rfl]
      exact List.rel_append hfirst.records hothers.records

theorem descend_covers {sources : List Source} (hsources : Source.Distinct sources)
    (heven : Source.Even sources) {place : Nat} {levels : List Level}
    {steps : List (Source × Option Join)} (h : Serving sources place levels steps) :
    ∀ (beginning : Combination) (r : Record), beginning.length = place →
      Fitting sources beginning → Agrees sources beginning r →
      (descend levels r).Covers sources beginning (joined sources steps beginning) := by
  induction h with
  | nil => intro beginning r _ _ hr; exact ⟨rfl, hr, .cons hr .nil⟩
  | cons hl _ ih =>
    intro beginning r hlen hfit hr
    subst hlen
    have hwidth := heven _ (List.mem_of_getElem? hl.source)
    refine tryRows_covers hsources hl hfit _ hwidth (fun row hrow r' hr' => ?_) r hr
    exact ih (beginning ++ [row]) r' (by simp) (hfit.concat hl.source (hwidth row hrow)) hr'

/-- A scan of all levels gives the records of the combinations that meet every ON equality, in the
order of nested loops, and no fault. -/
theorem run_eq {sources : List Source} (hsources : Source.Distinct sources)
    (heven : Source.Even sources) {base : Level} {levels : List Level}
    {steps : List (Source × Option Join)} (h : Serving sources 0 (base :: levels) steps)
    (hbase : base.on = none) :
    ∃ records, run base levels base.relation.rows = (records, none) ∧
      List.Forall₂ (Agrees sources) (joined sources steps []) records := by
  cases h with
  | cons hl hserving =>
    have hwidth := heven _ (List.mem_of_getElem? hl.source)
    -- without an ON equality the base admits every row
    have hall : ∀ row ∈ base.relation.rows, admitted sources [row] _ = true := fun row hrow => by
      have := hl.admits [] row {} rfl
        (Fitting.concat (Fitting.nil _) hl.source (hwidth row hrow)) (.nil _ _)
      rw [Level.admits, hbase] at this
      exact (Except.ok.inj this).symm
    simp only [joined, List.nil_append]
    generalize base.relation.rows = rows at hwidth hall
    induction rows with
    | nil => exact ⟨[], rfl, .nil⟩
    | cons row rest ih =>
      obtain ⟨records, hrun, hrecords⟩ := ih (fun r h => hwidth r (List.mem_cons_of_mem _ h))
        fun r h => hall r (List.mem_cons_of_mem _ h)
      have hfirst := descend_covers hsources heven hserving [row] (base.merge {} row) rfl
        (Fitting.concat (Fitting.nil _) hl.source (hwidth row List.mem_cons_self))
        ((Agrees.nil _ _).merge hsources hl.source row)
      refine ⟨(descend levels (base.merge {} row)).records ++ records, ?_, ?_⟩
      · simp only [run, hfirst.fault, hrun]
      · rw [List.flatMap_cons, if_pos (hall row List.mem_cons_self)]
        exact List.rel_append hfirst.records hrecords

end Scan

end Tabula
