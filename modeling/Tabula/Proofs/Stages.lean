import Tabula.Query

/-!
# What stages make of an answer

A stage sees one frame at a time.  On the frames of a whole answer, which are a header, rows and the
end of the rows, it does what a function on the list of the rows does, and stages in a row compose.

* `Stage.passAll_append`: frames pass stages as if each stage saw the whole answer of the one before.
* `Stage.passAll_distinct`, `Stage.passAll_offset`, `Stage.passAll_limit`: one stage each.
* `Select.passAll_stages`: the stages of a SELECT.
-/

namespace Tabula

/-! ## Algorithm -/

namespace Select

/-- The stage that compares rows, if there is one. -/
def comparison (s : Select) : List Stage :=
  match s.distinct with
  | none => []
  | some .all => [.distinct none {}]
  | some (.on keys) => [.distinct (some keys.length) {}]

/-- The rows of which none counts as an earlier one.  Where leading columns are compared, they are
left out. -/
def deduped (s : Select) (rows : List (List String)) : List (List String) :=
  match s.distinct with
  | none => rows
  | some .all => rows.eraseDups
  | some (.on keys) =>
    (rows.eraseDupsBy fun a b => a.take keys.length == b.take keys.length).map (·.drop keys.length)

/-- The names of the columns that are shown. -/
def shown (s : Select) (header : List String) : List String :=
  match s.distinct with
  | some (.on keys) => header.drop keys.length
  | _ => header

/-- The rows from the offset on, up to the limit. -/
def window (s : Select) (rows : List (List String)) : List (List String) :=
  match s.limit with
  | some most => (rows.drop (s.offset.getD 0)).take most
  | none => rows.drop (s.offset.getD 0)

end Select

namespace Stage

/-! ## Stages one after the other -/

theorem passThrough_append (front back : List Stage) (frame : Frame) :
    passThrough (front ++ back) frame =
      match passThrough front frame with
      | (front, none) => (front ++ back, none)
      | (front, some out) => (front ++ (passThrough back out).1, (passThrough back out).2) := by
  induction front generalizing frame with
  | nil => rfl
  | cons stage rest ih =>
    rw [List.cons_append, passThrough, passThrough]
    obtain ⟨stage', out⟩ := stage.pass frame
    cases out with
    | none => rfl
    | some out =>
      dsimp only
      rw [ih]
      obtain ⟨rest', last⟩ := passThrough rest out
      cases last with
      | none => rfl
      | some last => rfl

/-- What comes through the first stages goes through the others. -/
theorem passAll_append (frames : List Frame) :
    ∀ front back, passAll (front ++ back) frames = passAll back (passAll front frames) := by
  induction frames with
  | nil => intro front back; rfl
  | cons frame rest ih =>
    intro front back
    rw [passAll, passThrough_append, passAll]
    obtain ⟨front', out⟩ := passThrough front frame
    cases out with
    | none => exact ih front' back
    | some out =>
      dsimp only
      rw [ih, Option.toList_some, List.singleton_append, passAll]

theorem passAll_nil (frames : List Frame) : passAll [] frames = frames := by
  induction frames with
  | nil => rfl
  | cons frame rest ih =>
    simp only [passAll, passThrough, ih]
    rfl

theorem passAll_cons (stage : Stage) (frame : Frame) (frames : List Frame) :
    passAll [stage] (frame :: frames) =
      (stage.pass frame).2.toList ++ passAll [(stage.pass frame).1] frames := by
  rw [passAll, passThrough]
  obtain ⟨stage', out⟩ := stage.pass frame
  cases out with
  | none => rfl
  | some out => rfl

/-! ## One stage -/

theorem passAll_offset {skip : Nat} (rows : List (List String)) :
    ∀ dropped, passAll [.offset skip dropped] (rows.map .row ++ [.done]) =
      (rows.drop (skip - dropped)).map .row ++ [.done] := by
  induction rows with
  | nil => intro dropped; rw [List.drop_nil]; rfl
  | cons row rest ih =>
    intro dropped
    rw [List.map_cons, List.cons_append, passAll_cons, pass]
    by_cases hskip : dropped < skip
    · obtain ⟨left, hleft⟩ : ∃ left, skip - dropped = left + 1 := ⟨skip - dropped - 1, by omega⟩
      have hnext : skip - (dropped + 1) = left := by omega
      rw [if_pos hskip, hleft, List.drop_succ_cons, ih (dropped + 1), hnext]
      rfl
    · have hnone : skip - dropped = 0 := by omega
      rw [if_neg hskip, hnone, List.drop_zero, ih dropped, hnone, List.drop_zero]
      rfl

theorem passAll_limit {most : Nat} (rows : List (List String)) :
    ∀ passed, passAll [.limit most passed] (rows.map .row ++ [.done]) =
      (rows.take (most - passed)).map .row ++ [.done] := by
  induction rows with
  | nil => intro passed; rw [List.take_nil]; rfl
  | cons row rest ih =>
    intro passed
    rw [List.map_cons, List.cons_append, passAll_cons, pass]
    by_cases hpass : passed < most
    · obtain ⟨left, hleft⟩ : ∃ left, most - passed = left + 1 := ⟨most - passed - 1, by omega⟩
      have hnext : most - (passed + 1) = left := by omega
      rw [if_pos hpass, hleft, List.take_succ_cons, ih (passed + 1), hnext]
      rfl
    · have hnone : most - passed = 0 := by omega
      rw [if_neg hpass, hnone, List.take_zero, ih passed, hnone, List.take_zero]
      rfl

end Stage

/-- Key lists of one width, which is not zero, count as met if they were met. -/
theorem Seen.contains_eq {seen : Seen} {width : Nat} (hwidth : 0 < width)
    (hseen : ∀ keys ∈ seen.lists, keys.length = width) {keys : List String}
    (hkeys : keys.length = width) : seen.contains keys = seen.lists.contains keys := by
  have hne : keys.isEmpty = false := by
    rw [List.isEmpty_eq_false_iff]
    rintro rfl
    rw [List.length_nil] at hkeys
    omega
  rw [Seen.contains, hne, Bool.false_or, Bool.eq_iff_iff, List.any_eq_true, List.contains_iff_mem]
  constructor
  · rintro ⟨met, hmet, hprefix⟩
    have heq := (List.isPrefixOf_iff_prefix.1 hprefix).eq_of_length (hkeys.trans (hseen met hmet).symm)
    rw [heq]
    exact hmet
  · intro hmem
    exact ⟨keys, hmem, List.isPrefixOf_iff_prefix.2 (List.prefix_refl keys)⟩

namespace Stage

/-- Of rows that are compared in columns of one width, which is not zero, those come through that
agree with none that came before them and with none that was met earlier. -/
theorem passAll_distinct (on : Option Nat) {width : Nat} (hwidth : 0 < width)
    (rows : List (List String)) :
    ∀ seen : Seen, (∀ keys ∈ seen.lists, keys.length = width) →
      (∀ row ∈ rows, (compared on row).length = width) →
      passAll [.distinct on seen] (rows.map .row ++ [.done]) =
        (((rows.filter fun row => !seen.lists.contains (compared on row)).eraseDupsBy
          fun a b => compared on a == compared on b).map (visible on)).map .row ++ [.done] := by
  induction rows with
  | nil => intro seen _ _; rfl
  | cons row rest ih =>
    intro seen hseen hrows
    have hrow := hrows row List.mem_cons_self
    have hrest := fun other hother => hrows other (List.mem_cons_of_mem row hother)
    rw [List.map_cons, List.cons_append, passAll_cons, pass, Seen.insert,
      Seen.contains_eq hwidth hseen hrow]
    cases hmet : seen.lists.contains (compared on row) with
    | true =>
      rw [List.filter_cons_of_neg (by rw [hmet]; exact Bool.false_ne_true)]
      exact ih seen hseen hrest
    | false =>
      rw [List.filter_cons_of_pos (by rw [hmet]; rfl), List.eraseDupsBy_cons]
      -- what is met from here on agrees with the row or was met before
      have hlater : (rest.filter fun other =>
            !(compared on row :: seen.lists).contains (compared on other)) =
          (rest.filter fun other => !seen.lists.contains (compared on other)).filter
            fun other => decide ((compared on other == compared on row) = false) := by
        rw [List.filter_filter]
        apply List.filter_congr
        intro other _
        rw [List.contains_cons]
        cases compared on other == compared on row <;> rfl
      have hnext := ih ⟨compared on row :: seen.lists⟩
        (fun keys hkeys => by
          rcases List.mem_cons.1 hkeys with rfl | hkeys
          · exact hrow
          · exact hseen keys hkeys) hrest
      rw [hlater] at hnext
      exact congrArg (Frame.row (visible on row) :: ·) hnext

end Stage

/-! ## The stages of a SELECT -/

namespace Select

/-- The stage that leaves out rows that were met, if there is one. -/
theorem passAll_comparison {s : Select} {header : List String} {rows : List (List String)}
    (hwidths : ∀ row ∈ rows, row.length = header.length) (hheader : 0 < header.length)
    (hkeys : ∀ keys, s.distinct = some (.on keys) → keys ≠ []) :
    Stage.passAll s.comparison (.header header :: rows.map .row ++ [.done]) =
      .header (s.shown header) :: (s.deduped rows).map .row ++ [.done] := by
  have hnew : ∀ on : Option Nat,
      (rows.filter fun row => !(Seen.lists {}).contains (Stage.compared on row)) = rows :=
    fun on => List.filter_eq_self.2 fun row _ => rfl
  unfold comparison shown deduped
  cases hdistinct : s.distinct with
  | none => exact Stage.passAll_nil _
  | some d =>
    cases d with
    | all =>
      have hall : ∀ row : List String, Stage.compared none row = row := fun row =>
        List.take_length
      have hrows := Stage.passAll_distinct none hheader rows {} (fun _ h => by cases h)
        fun row hrow => by rw [hall, hwidths row hrow]
      rw [hnew] at hrows
      simp only [hall] at hrows
      have hvisible : rows.eraseDups.map (Stage.visible none) = rows.eraseDups :=
        List.map_id _
      rw [List.cons_append, Stage.passAll_cons]
      show .header header :: Stage.passAll [.distinct none {}] _ = _
      rw [hrows]
      exact congrArg (fun xs => Frame.header header :: xs.map Frame.row ++ [.done]) hvisible
    | on keys =>
      have hpos : 0 < min keys.length header.length := by
        have := List.length_pos_iff.2 (hkeys keys hdistinct)
        omega
      have hrows := Stage.passAll_distinct (some keys.length) hpos rows {}
        (fun _ h => by cases h) fun row hrow => by
          rw [Stage.compared, Option.getD_some, List.length_take, hwidths row hrow]
      rw [hnew] at hrows
      rw [List.cons_append, Stage.passAll_cons]
      exact congrArg (Frame.header (header.drop keys.length) :: ·) hrows

/-- The stages of a SELECT make of an answer the rows that are not met before, from the offset on
and up to the limit. -/
theorem passAll_stages {s : Select} {header : List String} {rows : List (List String)}
    (hwidths : ∀ row ∈ rows, row.length = header.length) (hheader : 0 < header.length)
    (hkeys : ∀ keys, s.distinct = some (.on keys) → keys ≠ []) :
    Stage.passAll s.stages (.header header :: rows.map .row ++ [.done]) =
      .header (s.shown header) :: (s.window (s.deduped rows)).map .row ++ [.done] := by
  have hoffset : ∀ (names : List String) (rows : List (List String)),
      Stage.passAll (s.offset.toList.map (.offset · 0))
          (.header names :: rows.map .row ++ [.done]) =
        .header names :: (rows.drop (s.offset.getD 0)).map .row ++ [.done] := by
    intro names rows
    cases s.offset with
    | none => exact Stage.passAll_nil _
    | some skip =>
      rw [List.cons_append]
      exact congrArg (Frame.header names :: ·) (Stage.passAll_offset rows 0)
  have hlimit : ∀ (names : List String) (rows : List (List String)),
      Stage.passAll (s.limit.toList.map (.limit · 0))
          (.header names :: (rows.drop (s.offset.getD 0)).map .row ++ [.done]) =
        .header names :: (s.window rows).map .row ++ [.done] := by
    intro names rows
    unfold window
    cases s.limit with
    | none => exact Stage.passAll_nil _
    | some most =>
      rw [List.cons_append]
      exact congrArg (Frame.header names :: ·) (Stage.passAll_limit _ 0)
  have hstages : s.stages =
      s.comparison ++ s.offset.toList.map (.offset · 0) ++ s.limit.toList.map (.limit · 0) := rfl
  rw [hstages, Stage.passAll_append, Stage.passAll_append,
    passAll_comparison hwidths hheader hkeys, hoffset, hlimit]

/-! ## Pages -/

/-- Pages of one size, one after the other, make up the rows that they reach. -/
theorem flatten_pages {α : Type} (size : Nat) (rows : List α) :
    ∀ count, ((List.range count).map fun i => (rows.drop (size * i)).take size).flatten =
      rows.take (size * count) := by
  intro count
  induction count with
  | zero => simp
  | succ count ih =>
    rw [List.range_succ, List.map_append, List.flatten_append, ih, Nat.mul_succ, List.take_add]
    simp

end Select

end Tabula
