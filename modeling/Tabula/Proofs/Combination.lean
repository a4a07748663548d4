import Tabula.Condition
import Tabula.Catalog
import Tabula.Scan

/-!
# Combinations of rows

What a SELECT is about, said without keys and records: a combination takes one row of each source, a
reference means one column of one source, and everything that a query asks of a combination is asked
of the values at the places that its references mean.

* `combinations`: all of them, in the order of nested loops over the places of the rows.
* `joined_eq_filter`: leaving out combinations as soon as an ON equality fails leaves out those, and
  only those, that fail one in the end.
-/

namespace Tabula

/-! ## Algorithm -/

/-- A table in a query: its name, the names of its columns, and its rows. -/
structure Source where
  name : String
  columns : List String
  rows : List Row
deriving DecidableEq

/-- One row of each source, in the order of the sources. -/
abbrev Combination := List Row

/-- The combinations of sources: rows of the first change slowest. -/
def combinations : List Source → List Combination
  | [] => [[]]
  | s :: rest => s.rows.flatMap fun row => (combinations rest).map (row :: ·)

/-- Whether a reference may mean a column of a source. -/
def Source.offers (s : Source) (c : ColumnRef) : Bool :=
  c.table.all (· == s.name) && s.columns.contains c.name

/-- The places of the source and of the column that a reference means, if only one source offers
it. -/
def place? (sources : List Source) (c : ColumnRef) : Option (Nat × Nat) :=
  match sources.zipIdx.filter fun (s, _) => s.offers c with
  | [(s, i)] => (s.columns.findIdx? (· == c.name)).map fun j => (i, j)
  | _ => none

/-- The value of a combination that a reference means. -/
def Combination.value? (sources : List Source) (combination : Combination) (c : ColumnRef) :
    Option Value :=
  (place? sources c).bind fun (i, j) => combination[i]?.bind fun row => row[j]?

/-- Whether the two values of an ON equality are equal and not null. -/
def Join.meets (sources : List Source) (combination : Combination) (j : Join) : Bool :=
  match combination.value? sources j.left, combination.value? sources j.right with
  | some v, some w => !v.isNull && !w.isNull && v.canonical == w.canonical
  | _, _ => false

/-- Whether a condition holds of the values of a combination at a given time. -/
def Condition.meets (now : String) (sources : List Source) (combination : Combination) :
    Condition → Bool
  | .always => true
  | .compare c op l =>
    (combination.value? sources c).any fun v => op.holds (.value v) (.ofLiteral now l)
  | .oneOf c ls negated =>
    (combination.value? sources c).any fun v =>
      (Operator.oneOf negated).holds (.value v) (.ofLiterals now ls)
  | .nullTest c negated => (combination.value? sources c).any fun v => v.isNull != negated

/-- The names of the columns of a projection. -/
def Projection.header (sources : List Source) : Projection → List String
  | .star => sources.flatMap (·.columns)
  | .column c => [c.name]
  | .count _ => []

/-- The values of a combination that are projected. -/
def Projection.values (sources : List Source) (combination : Combination) :
    Projection → List Value
  | .star => combination.flatten
  | .column c => (combination.value? sources c).toList
  | .count _ => []

/-- Whether a combination meets the ON equality of a source, if it has one. -/
def admitted (sources : List Source) (combination : Combination) (on : Option Join) : Bool :=
  on.all (Join.meets sources combination)

/-- The combinations that go on from a beginning, left out as soon as they fail an ON equality. -/
def joined (sources : List Source) : List (Source × Option Join) → Combination → List Combination
  | [], beginning => [beginning]
  | (s, on) :: rest, beginning =>
    s.rows.flatMap fun row =>
      if admitted sources (beginning ++ [row]) on then joined sources rest (beginning ++ [row])
      else []

/-! ## Lemmas -/

theorem filter_zipIdx_fst {sources : List Source} {c : ColumnRef} :
    (sources.zipIdx.filter fun (s, _) => s.offers c).map Prod.fst =
      sources.filter (·.offers c) := by
  conv => rhs; rw [← List.zipIdx_map_fst 0 sources]
  rw [List.filter_map]
  rfl

/-- The source that a reference means is the only one that offers it. -/
theorem place?_eq_some {sources : List Source} {c : ColumnRef} {i j : Nat}
    (h : place? sources c = some (i, j)) :
    ∃ s, sources[i]? = some s ∧ s.columns.findIdx? (· == c.name) = some j ∧
      sources.filter (·.offers c) = [s] := by
  unfold place? at h
  split at h
  · next s k heq =>
    obtain ⟨j', hj, hpair⟩ := Option.map_eq_some_iff.1 h
    obtain ⟨rfl, rfl⟩ := Prod.mk.inj hpair
    have hmem : (s, k) ∈ sources.zipIdx.filter fun (s, _) => s.offers c := by
      rw [heq]; exact List.mem_singleton_self _
    refine ⟨s, List.mk_mem_zipIdx_iff_getElem?.1 (List.mem_filter.1 hmem).1, hj, ?_⟩
    · rw [← filter_zipIdx_fst, heq]
      rfl
  · cases h

/-- A reference means something where one source alone offers it. -/
theorem place?_of_sole {sources : List Source} {c : ColumnRef} {s : Source}
    (h : sources.filter (·.offers c) = [s]) : ∃ p, place? sources c = some p := by
  have hoffers : s.offers c = true := by
    have : s ∈ sources.filter (·.offers c) := by rw [h]; exact List.mem_singleton_self s
    exact (List.mem_filter.1 this).2
  simp only [Source.offers, Bool.and_eq_true, List.contains_iff_mem] at hoffers
  obtain ⟨j, hj⟩ : ∃ j, s.columns.findIdx? (· == c.name) = some j :=
    Option.isSome_iff_exists.1 (List.findIdx?_isSome.trans
      (List.any_eq_true.2 ⟨c.name, hoffers.2, beq_self_eq_true c.name⟩))
  rw [← filter_zipIdx_fst, List.map_eq_singleton_iff] at h
  obtain ⟨⟨s', i⟩, hsole, rfl⟩ := h
  refine ⟨(i, j), ?_⟩
  unfold place?
  rw [hsole]
  exact congrArg (Option.map _) hj

/-- A value depends on the rows up to that of its source. -/
theorem Combination.value?_append {sources : List Source} {beginning rest : Combination}
    {c : ColumnRef} {i j : Nat} (h : place? sources c = some (i, j)) (hi : i < beginning.length) :
    Combination.value? sources (beginning ++ rest) c =
      Combination.value? sources beginning c := by
  unfold Combination.value?
  rw [h, Option.bind_some, Option.bind_some]
  dsimp only
  rw [List.getElem?_append_left hi]

/-- Both sides of an ON equality mean columns of the first sources. -/
def Join.Within (sources : List Source) (n : Nat) (j : Join) : Prop :=
  (∃ p, place? sources j.left = some p ∧ p.1 < n) ∧ ∃ p, place? sources j.right = some p ∧ p.1 < n

/-- Whether an ON equality holds depends on the rows up to those of its columns. -/
theorem admitted_append {sources : List Source} {beginning rest : Combination} {on : Option Join}
    (h : ∀ j ∈ on, j.Within sources beginning.length) :
    admitted sources (beginning ++ rest) on = admitted sources beginning on := by
  cases on with
  | none => rfl
  | some j =>
    obtain ⟨⟨p, hp, hlt⟩, q, hq, hlt'⟩ := h j rfl
    simp only [admitted, Option.all_some, Join.meets]
    rw [Combination.value?_append hp hlt, Combination.value?_append hq hlt']

/-- Combinations left out as soon as an ON equality fails are those that fail one. -/
theorem joined_eq_filter {sources : List Source} (levels : List (Source × Option Join)) :
    ∀ (beginning : Combination),
      (∀ (n : Nat) (s : Source) (j : Join), levels[n]? = some (s, some j) →
        j.Within sources (beginning.length + n + 1)) →
      joined sources levels beginning =
        ((combinations (levels.map (·.1))).map (beginning ++ ·)).filter fun combination =>
          levels.all fun (_, on) => admitted sources combination on := by
  induction levels with
  | nil => intro beginning _; simp [joined, combinations]
  | cons level rest ih =>
    obtain ⟨s, on⟩ := level
    intro beginning hwithin
    simp only [joined, combinations, List.map_cons, List.map_flatMap, List.filter_flatMap,
      List.map_map]
    congr 1
    funext row
    have hcons : ((beginning ++ ·) ∘ (row :: ·) : Combination → Combination) =
        ((beginning ++ [row]) ++ ·) := by
      funext tail; simp
    have hfirst : ∀ tail, admitted sources (beginning ++ [row] ++ tail) on =
        admitted sources (beginning ++ [row]) on := by
      intro tail
      refine admitted_append fun j hj => ?_
      have := hwithin 0 s j (by rw [Option.mem_def.1 hj]; rfl)
      simpa using this
    have hrest := ih (beginning ++ [row]) fun n s' j hn => by
      have := hwithin (n + 1) s' j hn
      rw [List.length_append, List.length_singleton]
      rwa [Nat.add_assoc beginning.length, Nat.add_comm 1 n]
    rw [hcons, List.filter_map]
    rw [List.filter_map] at hrest
    simp only [List.all_cons, Function.comp_def, hfirst]
    by_cases hmeets : admitted sources (beginning ++ [row]) on = true
    · rw [if_pos hmeets, hrest]
      simp [hmeets, Function.comp_def]
    · rw [if_neg hmeets]
      simp [hmeets]

/-- A combination has one row of each source. -/
theorem mem_combinations {sources : List Source} :
    ∀ {combination : Combination}, combination ∈ combinations sources →
      combination.length = sources.length ∧
        ∀ (i : Nat) (s : Source), sources[i]? = some s →
          ∃ row ∈ s.rows, combination[i]? = some row := by
  induction sources with
  | nil =>
    intro combination h
    rw [List.mem_singleton.1 h]
    exact ⟨rfl, fun i s hi => by simp at hi⟩
  | cons s rest ih =>
    intro combination h
    obtain ⟨row, hrow, h⟩ := List.mem_flatMap.1 h
    obtain ⟨tail, htail, rfl⟩ := List.mem_map.1 h
    obtain ⟨hlen, hrows⟩ := ih htail
    refine ⟨by simp [hlen], fun i s' hi => ?_⟩
    cases i with
    | zero =>
      obtain rfl := Option.some.inj hi
      exact ⟨row, hrow, rfl⟩
    | succ i => exact hrows i s' hi

end Tabula
