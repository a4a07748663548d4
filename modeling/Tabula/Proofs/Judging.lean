import Tabula.Proofs.Acceptance

/-!
# What a row that is tried is judged by

A scan asks the record that is carried along whether a row can be joined, and this record may hold
more than the rows that were taken before: it holds what the last joined row of the level, and of
the levels after it, left behind.  As long as none of these levels writes the key that is asked for,
the answer is that of the rows taken before.  A table that is joined twice writes its keys twice,
and there a row may be judged by another row of its own level.

`Noted` is the scan with a note of every row that is tried.

* `Noted.descend_scan`, `Noted.run_scan`: it is the same scan.
* `Noted.descend_records`, `Noted.run_records`: the notes say which records it finds.
* `Noted.mem_descend`: what holds of the record that is asked in each trial.
* `Trial.Untouched.of_distinct`: where every table is named once, no key is written over.
* `Select.trial_verdict`: what the verdict of a trial depends on.
* `Select.trial_verdict_differs`: a table joined to itself, whose row is joined once and not again.
-/

namespace Tabula

/-! ## Algorithm -/

/-- A row that is tried at a level of a scan. -/
structure Trial where
  /-- The rows that were taken before it, each with its level; the first table is one of them. -/
  outer : List (Level × Row)
  level : Level
  /-- The levels after it. -/
  later : List Level
  /-- The record as it was when the first row of the level was tried. -/
  entry : Record
  /-- The record that is asked whether the row can be joined. -/
  asked : Record
  row : Row
deriving DecidableEq

/-- What a trial is about, without the record that is carried along: the ON equality, the rows taken
before under the names of their tables and columns, and the row that is tried. -/
structure Question where
  on : Option OnEquality
  outer : List (String × List String × Row)
  row : Row
deriving DecidableEq

/-- Whether the rows taken before allow the row to be joined. -/
def Question.answer (x : Question) : Except Fault Bool :=
  let r : Record := x.outer.foldl (fun r (table, columns, row) => r.merge table columns row) {}
  match x.on with
  | some e => e.holds r x.row
  | none => .ok true

namespace Trial

/-- Whether the row is joined. -/
def verdict (t : Trial) : Except Fault Bool :=
  t.level.admits t.asked t.row

def question (t : Trial) : Question :=
  ⟨t.level.on, t.outer.map fun (l, row) => (l.table, l.relation.table.columnNames, row), t.row⟩

/-- The record that a trial completes, if it does. -/
def found? (t : Trial) : Option Record :=
  match t.later, t.verdict with
  | [], .ok true => some (t.level.merge t.asked t.row)
  | _, _ => none

/-- The key that is asked for is not one that rows taken before have written and that the level or
one after it writes as well. -/
def Untouched (t : Trial) : Prop :=
  ∀ e ∈ t.level.on, e.key ∈ t.outer.flatMap (·.1.keys) →
    e.key ∉ (t.level :: t.later).flatMap (·.keys)

instance (t : Trial) : Decidable t.Untouched :=
  inferInstanceAs (Decidable (∀ e ∈ t.level.on, e.key ∈ t.outer.flatMap (·.1.keys) →
    e.key ∉ (t.level :: t.later).flatMap (·.keys)))

end Trial

/-- A scan with the rows that it tried. -/
structure Noted where
  scan : Scan
  trials : List Trial

namespace Noted

/-- Tries rows of a level, noting each of them down. -/
def tryRows (l : Level) (note : Record → Row → Trial) (inner : Row → Record → Noted) :
    List Row → Record → Noted
  | [], r => ⟨⟨[], none, r⟩, []⟩
  | row :: rest, r =>
    match l.admits r row with
    | .error f => ⟨⟨[], some f, r⟩, [note r row]⟩
    | .ok false =>
      let others := tryRows l note inner rest r
      ⟨others.scan, note r row :: others.trials⟩
    | .ok true =>
      let first := inner row (l.merge r row)
      match first.scan.fault with
      | some f => ⟨⟨first.scan.records, some f, first.scan.left⟩, note r row :: first.trials⟩
      | none =>
        let others := tryRows l note inner rest first.scan.left
        ⟨⟨first.scan.records ++ others.scan.records, others.scan.fault, others.scan.left⟩,
          note r row :: (first.trials ++ others.trials)⟩

/-- Joins the rows of levels to a record that holds the rows taken before. -/
def descend : List Level → List (Level × Row) → Record → Noted
  | [], _, r => ⟨⟨[r], none, r⟩, []⟩
  | l :: later, outer, r =>
    tryRows l (⟨outer, l, later, r, ·, ·⟩) (fun row => descend later (outer ++ [(l, row)]))
      l.relation.rows r

/-- The records that begin with rows of a table, the fault that ended them, and the rows that were
tried. -/
def run (base : Level) (levels : List Level) :
    List Row → (List Record × Option Fault) × List Trial
  | [] => (([], none), [])
  | row :: rest =>
    let first := descend levels [(base, row)] (base.merge {} row)
    match first.scan.fault with
    | some f => ((first.scan.records, some f), first.trials)
    | none =>
      let ((records, fault), trials) := run base levels rest
      ((first.scan.records ++ records, fault), first.trials ++ trials)

end Noted

/-- The rows that a query tries. -/
def Query.trials (q : Query) : List Trial :=
  (Noted.run q.base q.levels q.base.relation.rows).2

/-- Two records have the same values, except perhaps under some keys. -/
def Record.SameBut (keys : List String) (r r' : Record) : Prop :=
  ∀ key ∉ keys, r.get? key = r'.get? key

/-- The record of rows that were taken. -/
def Record.ofTaken (outer : List (Level × Row)) : Record :=
  outer.foldl (fun r (l, row) => l.merge r row) {}

/-! ## Lemmas -/

/-! ### The notes -/

namespace Noted

variable {l : Level} {note : Record → Row → Trial} {inner : Row → Record → Noted}

theorem tryRows_scan {inner' : Record → Scan} (h : ∀ row r, (inner row r).scan = inner' r)
    (rows : List Row) :
    ∀ r, (tryRows l note inner rows r).scan = Scan.tryRows l inner' rows r := by
  induction rows with
  | nil => intro r; rfl
  | cons row rest ih =>
    intro r
    unfold tryRows Scan.tryRows
    rw [← h row]
    cases l.admits r row with
    | error f => rfl
    | ok hit =>
      cases hit with
      | false => exact ih r
      | true =>
        dsimp only
        cases (inner row (l.merge r row)).scan.fault with
        | some f => rfl
        | none => dsimp only; rw [ih]

theorem descend_scan (levels : List Level) :
    ∀ outer r, (descend levels outer r).scan = Scan.descend levels r := by
  induction levels with
  | nil => intro outer r; rfl
  | cons l later ih => exact fun outer r => tryRows_scan (fun row r => ih _ r) _ r

theorem run_scan (base : Level) (levels : List Level) (rows : List Row) :
    (run base levels rows).1 = Scan.run base levels rows := by
  induction rows with
  | nil => rfl
  | cons row rest ih =>
    unfold run Scan.run
    rw [← descend_scan levels [(base, row)], ← ih]
    dsimp only
    cases (descend levels [(base, row)] (base.merge {} row)).scan.fault <;> rfl

theorem tryRows_records
    (hinner : ∀ row r, l.admits r row = .ok true → (inner row (l.merge r row)).scan.records =
      (note r row).found?.toList ++ (inner row (l.merge r row)).trials.filterMap Trial.found?)
    (hnote : ∀ row r, l.admits r row ≠ .ok true → (note r row).found? = none) (rows : List Row) :
    ∀ r, (tryRows l note inner rows r).scan.records =
      (tryRows l note inner rows r).trials.filterMap Trial.found? := by
  induction rows with
  | nil => intro r; rfl
  | cons row rest ih =>
    intro r
    unfold tryRows
    cases hadmits : l.admits r row with
    | error f =>
      have hnone := hnote row r (by rw [hadmits]; nofun)
      dsimp only
      rw [List.filterMap_cons_none hnone]
      rfl
    | ok hit =>
      cases hit with
      | false =>
        have hnone := hnote row r (by rw [hadmits]; nofun)
        dsimp only
        rw [List.filterMap_cons_none hnone, ih]
      | true =>
        have hfirst := hinner row r hadmits
        have hcons (trials : List Trial) : (note r row :: trials).filterMap Trial.found? =
            (note r row).found?.toList ++ trials.filterMap Trial.found? := by
          rw [List.filterMap_cons]
          cases (note r row).found? <;> rfl
        dsimp only
        cases (inner row (l.merge r row)).scan.fault with
        | some f =>
          dsimp only
          rw [hcons, hfirst]
        | none =>
          dsimp only
          rw [hcons, List.filterMap_append, hfirst, ih, List.append_assoc]

/-- The records that a scan finds are those that its trials complete. -/
theorem descend_records (levels : List Level) :
    levels ≠ [] → ∀ outer r, (descend levels outer r).scan.records =
      (descend levels outer r).trials.filterMap Trial.found? := by
  induction levels with
  | nil => exact fun hne => absurd rfl hne
  | cons l later ih =>
    intro _ outer r
    refine tryRows_records (fun row asked (hadmits : l.admits asked row = .ok true) => ?_)
      (fun row asked hadmits => ?_) _ r
    · cases later with
      | nil =>
        rw [Trial.found?, Trial.verdict, hadmits]
        rfl
      | cons l' later => exact ih nofun _ _
    · unfold Trial.found? Trial.verdict
      split
      · next hverdict => exact absurd hverdict hadmits
      · rfl

/-- The trials of a level and of those after it, if what holds of the record that is carried along
goes on to hold. -/
theorem mem_tryRows {P : Record → Prop} {all : List Row}
    (hinner : ∀ row ∈ all, ∀ r, P r → l.admits r row = .ok true →
      (inner row (l.merge r row)).scan.fault = none → P (inner row (l.merge r row)).scan.left)
    {t : Trial} (rows : List Row) :
    (∀ row ∈ rows, row ∈ all) → ∀ {r : Record}, P r → t ∈ (tryRows l note inner rows r).trials →
      ∃ asked, P asked ∧ ∃ row ∈ all, t = note asked row ∨
        l.admits asked row = .ok true ∧ t ∈ (inner row (l.merge asked row)).trials := by
  induction rows with
  | nil => intro _ r _ ht; cases ht
  | cons row rest ih =>
    intro hrows r hr ht
    obtain ⟨hrow, hrest⟩ := List.forall_mem_cons.1 hrows
    unfold tryRows at ht
    split at ht
    · exact ⟨r, hr, row, hrow, .inl (List.mem_singleton.1 ht)⟩
    · rcases List.mem_cons.1 ht with rfl | ht
      · exact ⟨r, hr, row, hrow, .inl rfl⟩
      · exact ih hrest hr ht
    · next hadmits =>
      have hleft := hinner row hrow r hr hadmits
      dsimp only at ht
      split at ht
      · rcases List.mem_cons.1 ht with rfl | ht
        · exact ⟨r, hr, row, hrow, .inl rfl⟩
        · exact ⟨r, hr, row, hrow, .inr ⟨hadmits, ht⟩⟩
      · next hfault =>
        rcases List.mem_cons.1 ht with rfl | ht
        · exact ⟨r, hr, row, hrow, .inl rfl⟩
        · rcases List.mem_append.1 ht with ht | ht
          · exact ⟨r, hr, row, hrow, .inr ⟨hadmits, ht⟩⟩
          · exact ih hrest (hleft hfault) ht

end Noted

/-! ### The record that is carried along -/

namespace Record

theorem get?_merge_congr {table key : String} (columns : List String) :
    ∀ (row : Row) {r r' : Record}, r.get? key = r'.get? key →
      (r.merge table columns row).get? key = (r'.merge table columns row).get? key := by
  induction columns with
  | nil => intro row r r' h; exact h
  | cons c rest ih =>
    intro row r r' h
    cases row with
    | nil => exact h
    | cons v vs =>
      have hset : (r.set (columnKey table c) v).get? key =
          (r'.set (columnKey table c) v).get? key := by
        rw [get?_set, get?_set, h]
      exact ih vs hset

/-- What a row as wide as its table writes does not depend on what was there. -/
theorem get?_merge_of_mem {table key : String} (columns : List String) :
    ∀ {row : Row} (r r' : Record), row.length = columns.length →
      key ∈ columns.map (columnKey table) →
      (r.merge table columns row).get? key = (r'.merge table columns row).get? key := by
  induction columns with
  | nil => intro row r r' _ hkey; cases hkey
  | cons c rest ih =>
    intro row r r' hwidth hkey
    cases row with
    | nil => cases hwidth
    | cons v vs =>
      rcases List.mem_cons.1 hkey with rfl | hkey
      · refine get?_merge_congr rest vs ?_
        rw [get?_set, get?_set, if_pos rfl, if_pos rfl]
      · exact ih _ _ (Nat.succ.inj hwidth) hkey

namespace SameBut

variable {keys : List String} {r r' : Record}

theorem symm (h : r.SameBut keys r') : r'.SameBut keys r :=
  fun key hkey => (h key hkey).symm

theorem trans {r'' : Record} (h : r.SameBut keys r') (h' : r'.SameBut keys r'') :
    r.SameBut keys r'' :=
  fun key hkey => (h key hkey).trans (h' key hkey)

/-- A row that is merged makes no difference under keys that it does not write. -/
theorem merge_left {l : Level} (h : r.SameBut (l.keys ++ keys) r') (row : Row) :
    (l.merge r row).SameBut (l.keys ++ keys) r' := by
  intro key hkey
  rw [l.get?_merge_of_not_mem (fun hl => hkey (List.mem_append_left _ hl))]
  exact h key hkey

/-- A row that is merged into both records takes away what differs under its keys. -/
theorem merge {l : Level} (h : r.SameBut (l.keys ++ keys) r') {row : Row}
    (hwidth : row.length = l.relation.table.columnNames.length) :
    (l.merge r row).SameBut keys (l.merge r' row) := by
  intro key hkey
  by_cases hl : key ∈ l.keys
  · exact get?_merge_of_mem _ r r' hwidth hl
  · rw [l.get?_merge_of_not_mem hl, l.get?_merge_of_not_mem hl]
    exact h key fun hmem => (List.mem_append.1 hmem).elim hl hkey

theorem of_append {keys' : List String} (h : r.SameBut keys r') : r.SameBut (keys' ++ keys) r' :=
  fun key hkey => h key fun hmem => hkey (List.mem_append_right _ hmem)

end SameBut

theorem ofTaken_concat (outer : List (Level × Row)) (l : Level) (row : Row) :
    ofTaken (outer ++ [(l, row)]) = l.merge (ofTaken outer) row := by
  rw [ofTaken, List.foldl_append]
  rfl

/-- Rows that were taken write only the keys of their levels. -/
theorem ofTaken_get? {key : String} (outer : List (Level × Row))
    (h : ∀ taken ∈ outer, key ∉ taken.1.keys) : (ofTaken outer).get? key = none := by
  induction outer using List.reverseRecOn with
  | nil => rfl
  | append_singleton front taken ih =>
    obtain ⟨l, row⟩ := taken
    rw [ofTaken_concat, l.get?_merge_of_not_mem (h (l, row) (List.mem_append_right _
      (List.mem_singleton_self _)))]
    exact ih fun taken' htaken' => h taken' (List.mem_append_left _ htaken')

end Record

namespace Scan

variable {l : Level} {inner : Record → Scan}

/-- What holds of the record that is carried along holds after the last row, if there was no
fault. -/
theorem tryRows_preserves {P : Record → Prop} {rows : List Row}
    (hinner : ∀ row ∈ rows, ∀ r, P r → l.admits r row = .ok true →
      (inner (l.merge r row)).fault = none → P (inner (l.merge r row)).left) :
    ∀ {r : Record}, P r → (tryRows l inner rows r).fault = none →
      P (tryRows l inner rows r).left := by
  induction rows with
  | nil => intro r hr _; exact hr
  | cons row rest ih =>
    intro r hr hfault
    have ih := fun {r} => ih (fun row' hrow' => hinner row' (List.mem_cons_of_mem row hrow'))
      (r := r)
    unfold tryRows at hfault ⊢
    split
    · exact hr
    · next hadmits =>
      rw [hadmits] at hfault
      exact ih hr hfault
    · next hadmits =>
      rw [hadmits] at hfault
      dsimp only at hfault ⊢
      split
      · next hfirst =>
        rw [hfirst] at hfault
        cases hfault
      · next hfirst =>
        rw [hfirst] at hfault
        exact ih (hinner row List.mem_cons_self r hr hadmits hfirst) hfault

/-- A scan writes only the keys of its levels. -/
theorem descend_sameBut (levels : List Level) :
    ∀ r : Record, (descend levels r).fault = none →
      (descend levels r).left.SameBut (levels.flatMap (·.keys)) r := by
  induction levels with
  | nil => intro r _ key _; rfl
  | cons l later ih =>
    intro r
    rw [List.flatMap_cons]
    refine tryRows_preserves (P := fun left => left.SameBut _ r)
      (fun row _ left hleft _ hfault => ?_) (fun key _ => rfl)
    exact (ih _ hfault).of_append.trans (hleft.merge_left row)

/-- A level that asks for a key that is not there stops the scan, so that none of the levels after
it writes the key. -/
theorem descend_unwritten {key : String} {l : Level} (hl : l.on.map (·.key) = some key)
    {later : List Level} (before : List Level) (hbefore : ∀ l' ∈ before, key ∉ l'.keys) :
    ∀ r : Record, r.get? key = none → (descend (before ++ l :: later) r).fault = none →
      (descend (before ++ l :: later) r).left.get? key = none := by
  induction before with
  | nil =>
    intro r
    refine tryRows_preserves (P := fun left => left.get? key = none)
      fun row _ left hleft hadmits _ => ?_
    have hmissing : l.missing? [] = some key := by
      rw [Level.missing?, hl]
      rfl
    rw [l.admits_of_missing hmissing hleft] at hadmits
    cases hadmits
  | cons l' before ih =>
    intro r
    refine tryRows_preserves (P := fun left => left.get? key = none)
      fun row _ left hleft _ hfault => ?_
    refine ih (fun l' hl' => hbefore l' (List.mem_cons_of_mem _ hl')) _ ?_ hfault
    rw [l'.get?_merge_of_not_mem (hbefore l' List.mem_cons_self), hleft]

end Scan

/-! ### Trials -/

/-- The trials of a run are those of the scans that begin with its rows. -/
theorem Noted.mem_run {base : Level} {levels : List Level} {t : Trial} (rows : List Row)
    (ht : t ∈ (run base levels rows).2) :
    ∃ row ∈ rows, t ∈ (descend levels [(base, row)] (base.merge {} row)).trials := by
  induction rows with
  | nil => cases ht
  | cons row rest ih =>
    unfold run at ht
    dsimp only at ht
    split at ht
    · exact ⟨row, List.mem_cons_self, ht⟩
    · rcases List.mem_append.1 ht with ht | ht
      · exact ⟨row, List.mem_cons_self, ht⟩
      · obtain ⟨row', hrow', ht⟩ := ih ht
        exact ⟨row', List.mem_cons_of_mem row hrow', ht⟩

/-- Where a trial stands among levels, and what the record that was asked holds: that of the rows
taken before, but for the keys of its level and of those after it. -/
structure Trial.Stands (levels : List Level) (outer : List (Level × Row)) (before : List Level)
    (t : Trial) : Prop where
  levels : levels = before ++ t.level :: t.later
  outer : t.outer.map (·.1) = outer.map (·.1) ++ before
  entry : t.entry.SameBut ((t.level :: t.later).flatMap (·.keys)) (.ofTaken t.outer)
  asked : t.asked.SameBut ((t.level :: t.later).flatMap (·.keys)) (.ofTaken t.outer)

/-- The invariant of a scan: the record agrees with the rows taken before under all keys that the
levels still to come do not write. -/
theorem Noted.mem_descend {t : Trial} (levels : List Level)
    (heven : ∀ l ∈ levels, l.relation.Even) :
    ∀ {outer : List (Level × Row)} {r : Record},
      r.SameBut (levels.flatMap (·.keys)) (.ofTaken outer) →
      t ∈ (descend levels outer r).trials → ∃ before, t.Stands levels outer before := by
  induction levels with
  | nil => intro outer r _ ht; cases ht
  | cons l later ih =>
    intro outer r hr ht
    obtain ⟨hl, hlater⟩ := List.forall_mem_cons.1 heven
    have hleft (row : Row) (_ : row ∈ l.relation.rows) (left : Record)
        (hleft : left.SameBut ((l :: later).flatMap (·.keys)) (.ofTaken outer))
        (_ : l.admits left row = .ok true)
        (hfault : (descend later (outer ++ [(l, row)]) (l.merge left row)).scan.fault = none) :
        (descend later (outer ++ [(l, row)]) (l.merge left row)).scan.left.SameBut
          ((l :: later).flatMap (·.keys)) (.ofTaken outer) := by
      rw [descend_scan] at hfault ⊢
      exact (Scan.descend_sameBut later _ hfault).of_append.trans (hleft.merge_left row)
    obtain ⟨asked, hasked, row, hrow, rfl | ⟨hadmits, ht⟩⟩ :=
      mem_tryRows hleft _ (fun _ h => h) hr ht
    · exact ⟨[], rfl, (List.append_nil _).symm, hr, hasked⟩
    · have hwidth : row.length = l.relation.table.columnNames.length := by
        rw [hl.widths row hrow, Table.columnNames, List.length_map]
      have hmerged : (l.merge asked row).SameBut (later.flatMap (·.keys))
          (.ofTaken (outer ++ [(l, row)])) := by
        rw [Record.ofTaken_concat]
        exact hasked.merge hwidth
      obtain ⟨before, hstands⟩ := ih hlater hmerged ht
      refine ⟨l :: before, congrArg (l :: ·) hstands.levels, ?_, hstands.entry, hstands.asked⟩
      rw [hstands.outer, List.map_append, List.append_assoc]
      rfl

/-- A key that a level asks for, and that no level before it writes, is not there when it is asked
for. -/
theorem Noted.asked_unwritten {t : Trial} {key : String}
    (hkey : t.level.on.map (·.key) = some key) (before : List Level)
    (hbefore : ∀ l ∈ before, key ∉ l.keys) :
    ∀ {outer : List (Level × Row)} {r : Record}, r.get? key = none →
      t ∈ (descend (before ++ t.level :: t.later) outer r).trials →
      t.asked.get? key = none ∧ t.entry.get? key = none := by
  induction before with
  | nil =>
    intro outer r hr ht
    have hrefused (row : Row) (left : Record) (hleft : left.get? key = none) :
        t.level.admits left row ≠ .ok true := by
      have hmissing : t.level.missing? [] = some key := by
        rw [Level.missing?, hkey]
        rfl
      rw [t.level.admits_of_missing hmissing hleft]
      intro hadmitted
      cases hadmitted
    obtain ⟨asked, hasked, row, -, heq | ⟨hadmits, -⟩⟩ :=
      mem_tryRows (fun row _ left hleft hadmits => absurd hadmits (hrefused row left hleft)) _
        (fun _ h => h) hr ht
    · rw [heq]
      exact ⟨hasked, hr⟩
    · exact absurd hadmits (hrefused row asked hasked)
  | cons l before ih =>
    intro outer r hr ht
    obtain ⟨hl, hbefore⟩ := List.forall_mem_cons.1 hbefore
    have hmerged {left : Record} (row : Row) (hleft : left.get? key = none) :
        (l.merge left row).get? key = none := by
      rw [l.get?_merge_of_not_mem hl, hleft]
    have hleft (row : Row) (_ : row ∈ l.relation.rows) (left : Record)
        (hleft : left.get? key = none) (_ : l.admits left row = .ok true)
        (hfault : (descend (before ++ t.level :: t.later) (outer ++ [(l, row)])
          (l.merge left row)).scan.fault = none) :
        (descend (before ++ t.level :: t.later) (outer ++ [(l, row)])
          (l.merge left row)).scan.left.get? key = none := by
      rw [descend_scan] at hfault ⊢
      exact Scan.descend_unwritten hkey before hbefore _ (hmerged row hleft) hfault
    obtain ⟨asked, hasked, row, -, heq | ⟨-, ht⟩⟩ := mem_tryRows hleft _ (fun _ h => h) hr ht
    · -- the trial is of a level after the first, so it is none of the first
      have hlength := congrArg (fun t : Trial => t.later.length) heq
      simp at hlength
      omega
    · exact ih hbefore (hmerged row hasked) ht

/-- What the record that was asked answers is what the rows taken before do, where the key is none
that is written over. -/
theorem Trial.Stands.verdict {t : Trial} {base : Level} {row : Row}
    {levels before : List Level} (h : t.Stands levels [(base, row)] before)
    (huntouched : t.Untouched)
    (ht : t ∈ (Noted.descend levels [(base, row)] (base.merge {} row)).trials) :
    t.verdict = t.level.admits t.entry t.row ∧ t.verdict = t.question.answer := by
  have hquestion : t.question.answer = t.level.admits (.ofTaken t.outer) t.row := by
    unfold Question.answer Trial.question Level.admits Record.ofTaken
    rw [List.foldl_map]
    rfl
  rw [hquestion, Trial.verdict]
  unfold Level.admits
  cases hon : t.level.on with
  | none => exact ⟨rfl, rfl⟩
  | some e =>
    have hkey : t.level.on.map (·.key) = some e.key := by rw [hon]; rfl
    obtain ⟨hentry, htaken⟩ : t.asked.get? e.key = t.entry.get? e.key ∧
        t.asked.get? e.key = (Record.ofTaken t.outer).get? e.key := by
      by_cases hwritten : e.key ∈ t.outer.flatMap (·.1.keys)
      · have hfree := huntouched e hon hwritten
        exact ⟨(h.asked _ hfree).trans (h.entry _ hfree).symm, h.asked _ hfree⟩
      · -- a level that asks for a key that is not there stops the scan before anything writes it
        have hnone : ∀ taken ∈ t.outer, e.key ∉ taken.1.keys := fun taken htaken hmem =>
          hwritten (List.mem_flatMap.2 ⟨taken, htaken, hmem⟩)
        have hlevels : ∀ l ∈ [base] ++ before, e.key ∉ l.keys := by
          have houter : t.outer.map (·.1) = [base] ++ before := h.outer
          rw [← houter, List.forall_mem_map]
          exact hnone
        obtain ⟨hbase, hbefore⟩ := List.forall_mem_cons.1 hlevels
        have hr : (base.merge {} row).get? e.key = none := base.get?_merge_of_not_mem hbase {} row
        rw [h.levels] at ht
        obtain ⟨hasked, hentry⟩ := Noted.asked_unwritten hkey before hbefore hr ht
        rw [hasked, hentry, Record.ofTaken_get? _ hnone]
        exact ⟨rfl, rfl⟩
    dsimp only
    unfold OnEquality.holds Record.get
    rw [← hentry, ← htaken]
    exact ⟨rfl, rfl⟩

/-- The records that a run finds are those that its trials complete. -/
theorem Noted.run_records {base : Level} {levels : List Level} (hlevels : levels ≠ [])
    (rows : List Row) :
    (Scan.run base levels rows).1 = (run base levels rows).2.filterMap Trial.found? := by
  rw [← run_scan]
  induction rows with
  | nil => rfl
  | cons row rest ih =>
    unfold run
    have hfirst := descend_records levels hlevels [(base, row)] (base.merge {} row)
    dsimp only
    split
    · exact hfirst
    · rw [List.filterMap_append, ← hfirst, ← ih]

/-- Where no two tables of a query have one name, no level writes a key of another one. -/
theorem Trial.Untouched.of_distinct {t : Trial} {base : Level} {row : Row}
    {levels before : List Level} (h : t.Stands levels [(base, row)] before)
    (hnames : ((base :: levels).map (·.table)).Nodup)
    (hdotless : ∀ l ∈ base :: levels, Dotless l.table) : t.Untouched := by
  intro e _ hwritten hrewritten
  have hsplit : base :: levels = t.outer.map (·.1) ++ t.level :: t.later := by
    rw [h.outer, h.levels]
    rfl
  rw [hsplit] at hnames hdotless
  obtain ⟨taken, htaken, hkey⟩ := List.mem_flatMap.1 hwritten
  obtain ⟨l, hl, hkey'⟩ := List.mem_flatMap.1 hrewritten
  have houter := List.mem_map_of_mem (f := (·.1)) htaken
  obtain ⟨c, -, hc⟩ := List.mem_map.1 hkey
  obtain ⟨c', -, hc'⟩ := List.mem_map.1 hkey'
  have hsame := (columnKey_inj (hdotless _ (List.mem_append_left _ houter))
    (hdotless _ (List.mem_append_right _ hl)) (hc.trans hc'.symm)).1
  rw [List.map_append, List.nodup_append] at hnames
  exact hnames.2.2 _ (List.mem_map_of_mem houter) _ (List.mem_map_of_mem hl) hsame

/-- Every trial of a query stands where its levels say. -/
theorem Query.trial_stands {q : Query} (hq : q.Sound) {t : Trial} (ht : t ∈ q.trials) :
    ∃ row ∈ q.base.relation.rows, ∃ before, t.Stands q.levels [(q.base, row)] before ∧
      t ∈ (Noted.descend q.levels [(q.base, row)] (q.base.merge {} row)).trials := by
  obtain ⟨row, hrow, ht⟩ := Noted.mem_run _ ht
  obtain ⟨before, hstands⟩ := Noted.mem_descend q.levels hq.levels (fun _ _ => rfl) ht
  exact ⟨row, hrow, before, hstands, ht⟩

/-! ## Top theorem -/

/-- What the rows are judged by that a SELECT tries.  The record that is asked is the one with which
the level was entered, but for the keys of the level and of those after it; and where the key that
is asked for is not one that these write over, the row is joined or not as that record says and as
the rows taken before say, whatever other rows the tables have.  No key is written over where every
table is named once. -/
theorem Select.trial_verdict {now : String} {c : Catalog} (hc : c.Reachable) {s : Select}
    {q : Query} (h : s.bind now c = .ok q) {t : Trial} (ht : t ∈ q.trials) :
    (∃ before, q.levels = before ++ t.level :: t.later ∧ t.outer.map (·.1) = q.base :: before) ∧
      t.asked.SameBut ((t.level :: t.later).flatMap (·.keys)) t.entry ∧
      (t.Untouched → t.verdict = t.level.admits t.entry t.row ∧ t.verdict = t.question.answer) ∧
      (((q.base :: q.levels).map (·.table)).Nodup → (∀ l ∈ q.base :: q.levels, Dotless l.table) →
        t.Untouched) := by
  obtain ⟨row, -, before, hstands, ht⟩ := Query.trial_stands (bind_sound hc h) ht
  exact ⟨⟨before, hstands.levels, hstands.outer⟩, hstands.asked.trans hstands.entry.symm,
    fun huntouched => hstands.verdict huntouched ht, .of_distinct hstands⟩

/-- The second of two rows that join with one row: what the first one left in the record makes no
difference. -/
theorem Select.trial_verdict_of_two :
    let c := Catalog.after [
      (fun _ => "", .createTable ⟨"a", false, [⟨"x", "text", false, []⟩], []⟩),
      (fun _ => "", .createTable ⟨"b", false, [⟨"x", "text", false, []⟩, ⟨"y", "text", false, []⟩],
        []⟩),
      (fun _ => "", .insert ⟨"a", ["x"], [[⟨.string, "k"⟩]], none⟩),
      (fun _ => "", .insert ⟨"b", ["x", "y"], [[⟨.string, "k"⟩, ⟨.string, "p"⟩],
        [⟨.string, "k"⟩, ⟨.string, "q"⟩]], none⟩)]
    let s : Select := ⟨none, [.star], ["a"], [⟨"b", ⟨some "b", "x"⟩, ⟨some "a", "x"⟩⟩], [], [],
      none, none, false⟩
    ∃ q, s.bind "" c = .ok q ∧ ∃ t ∈ q.trials, t.asked ≠ t.entry ∧
      t.asked.SameBut ["b.x", "b.y"] t.entry ∧ t.verdict = .ok true ∧
      t.verdict = t.level.admits t.entry t.row ∧ t.verdict = t.question.answer := by
  intro c s
  let base : Level := ⟨"a", ⟨⟨"a", [⟨"x", "text", false, false, false, none⟩]⟩, [[.text "k"]], []⟩,
    none⟩
  let level : Level := ⟨"b", ⟨⟨"b", [⟨"x", "text", false, false, false, none⟩,
    ⟨"y", "text", false, false, false, none⟩]⟩, [[.text "k", .text "p"], [.text "k", .text "q"]],
    []⟩, some ⟨0, "a.x"⟩⟩
  let q : Query := ⟨base, [level], [], .cells ⟨["x", "x", "y"], ["a.x", "b.x", "b.y"], []⟩, []⟩
  let t : Trial := ⟨[(base, [.text "k"])], level, [], ⟨[("a.x", .text "k")]⟩,
    ⟨[("a.x", .text "k"), ("b.x", .text "k"), ("b.y", .text "p")]⟩, [.text "k", .text "q"]⟩
  have hq : s.bind "" c = .ok q := by decide +kernel
  have ht : t ∈ q.trials := by decide +kernel
  have hkeys : (t.level :: t.later).flatMap (·.keys) = ["b.x", "b.y"] := by decide +kernel
  obtain ⟨-, hsame, hverdict, huntouched⟩ := trial_verdict (.after _) hq ht
  rw [hkeys] at hsame
  exact ⟨q, hq, t, ht, by decide +kernel, hsame, by decide +kernel,
    hverdict (huntouched (by decide) (by decide))⟩

/-- A table joined to itself: the row that the first of two equal rows left in the record is what
the second one is judged by. -/
theorem Select.trial_verdict_differs :
    let c := Catalog.after [
      (fun _ => "", .createTable ⟨"t", false, [⟨"x", "text", false, []⟩, ⟨"y", "text", false, []⟩],
        []⟩),
      (fun _ => "", .insert ⟨"t", ["x", "y"], [[⟨.string, "a"⟩, ⟨.string, "b"⟩],
        [⟨.string, "b"⟩, ⟨.string, "c"⟩], [⟨.string, "b"⟩, ⟨.string, "c"⟩]], none⟩)]
    let s : Select := ⟨none, [.star], ["t"], [⟨"t", ⟨some "t", "x"⟩, ⟨some "t", "y"⟩⟩], [], [],
      none, none, false⟩
    ∃ q, s.bind "" c = .ok q ∧ ∃ t ∈ q.trials, ∃ t' ∈ q.trials, t.question = t'.question ∧
      t.verdict = .ok true ∧ t'.verdict = .ok false ∧
      t'.level.admits t'.entry t'.row = .ok true ∧
      q.frames = ([.header ["x", "y"], .row ["b", "c"], .done], none) := by
  intro c s
  let r : Relation := ⟨⟨"t", [⟨"x", "text", false, false, false, none⟩,
    ⟨"y", "text", false, false, false, none⟩]⟩,
    [[.text "a", .text "b"], [.text "b", .text "c"], [.text "b", .text "c"]], []⟩
  let level : Level := ⟨"t", r, some ⟨0, "t.y"⟩⟩
  let q : Query := ⟨⟨"t", r, none⟩, [level], [], .cells ⟨["x", "y"], ["t.x", "t.y"], []⟩, []⟩
  let taken : List (Level × Row) := [(⟨"t", r, none⟩, [.text "a", .text "b"])]
  let entry : Record := ⟨[("t.x", .text "a"), ("t.y", .text "b")]⟩
  let left : Record := ⟨[("t.x", .text "b"), ("t.y", .text "c")]⟩
  let t : Trial := ⟨taken, level, [], entry, entry, [.text "b", .text "c"]⟩
  let t' : Trial := ⟨taken, level, [], entry, left, [.text "b", .text "c"]⟩
  have hq : s.bind "" c = .ok q := by decide +kernel
  have ht : t ∈ q.trials := by decide +kernel
  have ht' : t' ∈ q.trials := by decide +kernel
  exact ⟨q, hq, t, ht, t', ht', rfl, by decide +kernel, by decide +kernel, by decide +kernel,
    by decide +kernel⟩

end Tabula
