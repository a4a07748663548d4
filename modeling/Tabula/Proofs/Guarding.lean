import Tabula.Proofs.Operations
import Tabula.Proofs.Reach

/-!
# Guarded statements

A CREATE with IF NOT EXISTS and a DROP with IF EXISTS do what they do without the guard, unless
there is nothing to do: what is to be made is there already, or what is to be taken out is not.  The
statement without the guard fails then, and the guarded one answers that it changed nothing.  Every
other fault stays, also the lack of the table that an index is for.

* `Statement.idle_iff`: an attempt is refused for existence exactly where there is nothing to do.
* `Statement.idle_of_attempt`: an attempt that succeeds leaves nothing to do.
* `Statement.execute_guarded`: what a guard changes, and what a second execution does.
-/

namespace Tabula

/-! ## Algorithm -/

/-- Whether a fault is about the existence of a table or an index. -/
def Fault.OfExistence : Fault → Prop
  | .noTable _ => True
  | .tableExists _ => True
  | .indexExists _ => True
  | _ => False

namespace Statement

/-- The statement without its guard. -/
def unguarded : Statement → Statement
  | .createTable d => .createTable { d with ifNotExists := false }
  | .createIndex d => .createIndex { d with ifNotExists := false }
  | .dropTable table _ => .dropTable table false
  | s => s

/-- A fault that a guard makes up for: a CREATE is excused from what exists, a DROP from what does
not. -/
def Excuses (s : Statement) : Fault → Prop
  | .tableExists _ => s.unguardedClause = .create
  | .indexExists _ => s.unguardedClause = .create
  | .noTable _ => s.unguardedClause = .drop
  | _ => False

/-- What a CREATE or a DROP makes of a catalog, or why it is refused. -/
def attempt (c : Catalog) : Statement → Except Fault (Catalog × List Frame)
  | .createTable d => d.execute.reach c
  | .createIndex d => d.execute.reach c
  | .dropTable table _ => (Catalog.dropTable table).reach c
  | _ => .ok (c, [])

/-- A statement has nothing to do: the table that it describes is there, its table has an index of
the name, or there is no table to take out. -/
def Idle (c : Catalog) : Statement → Prop
  | .createTable d => (∃ t, d.define = .ok t) ∧ c.contains d.table = true
  | .createIndex d => ∃ r, c.get? d.table = some r ∧ ∃ i ∈ r.indexes, i.name = d.name
  | .dropTable table _ => c.get? table = none
  | _ => False

end Statement

/-! ## Lemmas -/

/-! ### Faults that are not about existence -/

namespace Table

theorem setKeys_eq_error {sole : Bool} (keys : List String) :
    ∀ {t : Table} {f : Fault}, t.setKeys sole keys = .error f →
      ∃ key, f = .noColumn t.name key := by
  induction keys with
  | nil => intro t f h; cases h
  | cons key rest ih =>
    intro t f h
    simp only [setKeys, bind_eq_error] at h
    rcases h with h | ⟨position, -, h⟩
    · exact ⟨key, (require_eq_error.1 h).2⟩
    · exact ih (t := t.setKey sole position) h

end Table

/-- A definition is refused for its columns. -/
theorem CreateTable.define_eq_error {d : CreateTable} {f : Fault} (h : d.define = .error f) :
    ¬f.OfExistence := by
  simp only [define, bind_eq_error] at h
  rcases h with h | ⟨t, -, h⟩
  · unfold Table.make at h
    split at h
    · obtain rfl := Except.error.inj h
      exact id
    · cases h
  · obtain ⟨key, rfl⟩ := Table.setKeys_eq_error _ h
    exact id

theorem Relation.requireAll_eq_error {t : Table} (names : List String) :
    ∀ {f : Fault}, requireAll t names = .error f → ¬f.OfExistence := by
  induction names with
  | nil => intro f h; cases h
  | cons name rest ih =>
    intro f h
    simp only [requireAll, bind_eq_error] at h
    rcases h with h | ⟨position, -, h⟩
    · obtain ⟨-, rfl⟩ := Table.require_eq_error.1 h
      exact id
    · exact ih h

/-- A column is refused an index for the key that two rows hold. -/
theorem Relation.checkDistinct_eq_error {r : Relation} {nocase : Bool} {position : Nat} {f : Fault}
    (h : r.checkDistinct nocase position = .error f) : ∃ column v, f = r.notUnique column v := by
  unfold checkDistinct at h
  split at h
  · next v column _ _ => exact ⟨column, v, (Except.error.inj h).symm⟩
  · cases h

/-- Whether an index of the name is there is asked first; an index of a new name is refused for its
columns or for the rows. -/
theorem Relation.createIndex_eq_error {r : Relation} {index : Index} {f : Fault}
    (h : r.createIndex index = .error f) :
    (f = .indexExists index.name ∧ ∃ i ∈ r.indexes, i.name = index.name) ∨
      (¬f.OfExistence ∧ ∀ i ∈ r.indexes, i.name ≠ index.name) := by
  simp only [createIndex_eq, bind_eq_error] at h
  rcases h with h | ⟨⟨⟩, hname, h⟩
  · unfold checkIndexName at h
    split at h
    · next hany =>
      exact .inl ⟨(Except.error.inj h).symm, by simpa using hany⟩
    · cases h
  · refine .inr ⟨?_, checkIndexName_eq_ok.1 hname⟩
    rcases h with h | ⟨⟨⟩, -, h⟩
    · exact requireAll_eq_error _ h
    · cases hsole : index.soleUnique? with
      | none =>
        rw [hsole] at h
        rcases h with h | ⟨_, -, h⟩
        · cases h
        · cases h
      | some indexed =>
        rw [hsole] at h
        have h : (makeUnique indexed).reach r = .error f := by
          rcases h with h | ⟨_, -, h⟩
          · exact h
          · cases h
        simp only [makeUnique_reach, bind_eq_error] at h
        rcases h with h | ⟨position, -, h | ⟨_, -, h⟩⟩
        · obtain ⟨-, rfl⟩ := Table.require_eq_error.1 h
          exact id
        · obtain ⟨column, v, rfl⟩ := checkDistinct_eq_error h
          exact id
        · cases h

/-! ### What the statements do -/

/-- A CREATE TABLE is refused for its definition first, then for its name. -/
theorem CreateTable.execute_eq (d : CreateTable) (c : Catalog) :
    d.execute.reach c = d.define >>= fun t =>
      if c.contains d.table then .error (.tableExists d.table)
      else .ok (c.set d.table { table := t }, [.result 0 1]) := by
  rw [execute_reach]
  cases ht : d.define with
  | error f => rfl
  | ok t =>
    simp only [ok_bind, Catalog.create_eq, define_name ht]
    split <;> rfl

theorem Catalog.contains_set (c : Catalog) (name : String) (r : Relation) :
    (c.set name r).contains name = true := by
  rw [contains, get?_set, if_pos rfl]
  rfl

namespace Statement

variable {times : Times} {s : Statement} {c : Catalog}

/-- Without its guard a statement does what it describes as a whole or not at all. -/
theorem execute_unguarded (hs : s.isGuarded = true) (times : Times) (c : Catalog) :
    s.unguarded.execute times c = .ofExcept c (s.attempt c) := by
  cases s with
  | createTable d => exact Outcome.ofAction_eq d.atomic_execute c
  | createIndex d => exact Outcome.ofAction_eq d.atomic_execute c
  | dropTable table guarded => exact Outcome.ofAction_eq (Catalog.atomic_dropTable table) c
  | _ => cases hs

theorem execute_eq_attempt (hs : s.isGuarded = true) (times : Times) (c : Catalog) :
    s.execute times c =
      let o := Outcome.ofExcept c (s.attempt c)
      if o.fault.any s.isExcused then o.swallow else o := by
  rw [execute_eq, hs, ← execute_unguarded hs times c]
  cases s with
  | createTable d => rfl
  | createIndex d => rfl
  | dropTable table guarded => rfl
  | _ => cases hs

theorem isExcused_iff (hs : s.isGuarded = true) (f : Fault) :
    s.isExcused f = true ↔ s.Excuses f := by
  cases s with
  | createTable d => cases f <;> simp [isExcused, Excuses, unguardedClause]
  | createIndex d => cases f <;> simp [isExcused, Excuses, unguardedClause]
  | dropTable table guarded => cases f <;> simp [isExcused, Excuses, unguardedClause]
  | _ => cases hs

theorem Excuses.ofExistence {f : Fault} (h : s.Excuses f) : f.OfExistence := by
  cases f with
  | noTable name => trivial
  | tableExists name => trivial
  | indexExists name => trivial
  | _ => exact h

/-- A CREATE TABLE is refused for existence exactly where it is sound and its table is there. -/
theorem idle_createTable (d : CreateTable) :
    (Statement.createTable d).Idle c ↔
      ∃ f, (Statement.createTable d).attempt c = .error f ∧
        (Statement.createTable d).Excuses f := by
  simp only [Idle, attempt, CreateTable.execute_eq]
  cases hdefine : d.define with
  | error f =>
    constructor
    · rintro ⟨⟨t, ht⟩, -⟩
      cases ht
    · rintro ⟨f', hf, hexcused⟩
      obtain rfl := Except.error.inj hf
      exact absurd hexcused.ofExistence (CreateTable.define_eq_error hdefine)
  | ok t =>
    rw [ok_bind]
    cases c.contains d.table with
    | true => exact ⟨fun _ => ⟨_, rfl, rfl⟩, fun _ => ⟨⟨t, rfl⟩, rfl⟩⟩
    | false =>
      constructor
      · rintro ⟨-, h⟩
        cases h
      · rintro ⟨f, hf, -⟩
        cases hf

/-- A CREATE INDEX is refused for existence exactly where its table has an index of the name; the
lack of the table is no reason not to make an index. -/
theorem idle_createIndex (d : CreateIndex) :
    (Statement.createIndex d).Idle c ↔
      ∃ f, (Statement.createIndex d).attempt c = .error f ∧
        (Statement.createIndex d).Excuses f := by
  simp only [Idle, attempt, CreateIndex.execute_reach, Catalog.get]
  cases hr : c.get? d.table with
  | none =>
    constructor
    · rintro ⟨r, h, -⟩
      cases h
    · rintro ⟨f, hf, hexcused⟩
      obtain rfl := Except.error.inj hf
      cases hexcused
  | some r =>
    simp only [ok_bind, Option.some.injEq, exists_eq_left']
    cases hindex : r.createIndex d.define with
    | ok next =>
      constructor
      · rintro ⟨i, hi, hname⟩
        exact absurd hname ((Relation.createIndex_eq_ok hindex).1 i hi)
      · rintro ⟨f, hf, -⟩
        cases hf
    | error f =>
      rcases Relation.createIndex_eq_error hindex with ⟨rfl, hthere⟩ | ⟨hother, hnew⟩
      · exact ⟨fun _ => ⟨_, rfl, rfl⟩, fun _ => hthere⟩
      · constructor
        · rintro ⟨i, hi, hname⟩
          exact absurd hname (hnew i hi)
        · rintro ⟨f', hf, hexcused⟩
          obtain rfl := Except.error.inj hf
          exact absurd hexcused.ofExistence hother

/-- A DROP TABLE is refused exactly where there is no table. -/
theorem idle_dropTable (table : String) (guarded : Bool) :
    (Statement.dropTable table guarded).Idle c ↔
      ∃ f, (Statement.dropTable table guarded).attempt c = .error f ∧
        (Statement.dropTable table guarded).Excuses f := by
  simp only [Idle, attempt, Catalog.dropTable_reach, Catalog.drop_eq, Catalog.get]
  cases c.get? table with
  | none => exact ⟨fun _ => ⟨_, rfl, rfl⟩, fun _ => rfl⟩
  | some r =>
    constructor
    · intro h
      cases h
    · rintro ⟨f, hf, -⟩
      cases hf

/-- An attempt is refused for existence exactly where there is nothing to do. -/
theorem idle_iff (hs : s.isGuarded = true) :
    s.Idle c ↔ ∃ f, s.attempt c = .error f ∧ s.Excuses f := by
  cases s with
  | createTable d => exact idle_createTable d
  | createIndex d => exact idle_createIndex d
  | dropTable table guarded => exact idle_dropTable table guarded
  | _ => cases hs

/-- An attempt that succeeds leaves nothing to do. -/
theorem idle_of_attempt (hs : s.isGuarded = true) {next : Catalog} {frames : List Frame}
    (h : s.attempt c = .ok (next, frames)) : s.Idle next := by
  cases s with
  | createTable d =>
    obtain ⟨t, ht, hcreate⟩ := bind_eq_ok.1 ((CreateTable.execute_eq d c).symm.trans h)
    split at hcreate
    · cases hcreate
    · obtain ⟨rfl, -⟩ := Prod.mk.inj (Except.ok.inj hcreate)
      exact ⟨⟨t, ht⟩, c.contains_set d.table _⟩
  | createIndex d =>
    obtain ⟨r, indexed, hr, hindex, rfl⟩ := CreateIndex.execute_eq_ok h
    refine ⟨indexed, by rw [Catalog.get?_set, if_pos rfl], d.define, ?_, rfl⟩
    obtain ⟨-, -, ⟨-, rfl⟩ | ⟨_, _, -, -, -, rfl⟩⟩ := Relation.createIndex_eq_ok hindex
    · exact List.mem_append_right _ (List.mem_singleton_self _)
    · exact List.mem_append_right _ (List.mem_singleton_self _)
  | dropTable table guarded =>
    obtain ⟨r, -, rfl⟩ := Catalog.dropTable_eq_ok h
    show (c.erase table).get? table = none
    rw [Catalog.get?_erase, if_pos rfl]
  | _ => cases hs

/-- A guarded statement that has nothing to do succeeds without a change. -/
theorem execute_of_idle (hs : s.isGuarded = true) (h : s.Idle c) (times : Times) :
    s.execute times c = ⟨c, [.result 0 0], none⟩ := by
  obtain ⟨f, hf, hexcused⟩ := (idle_iff hs).1 h
  have hany : (some f).any s.isExcused = true := (isExcused_iff hs f).2 hexcused
  rw [execute_eq_attempt hs, hf]
  exact if_pos hany

/-- A guard changes nothing where there is something to do. -/
theorem execute_of_not_idle (hs : s.isGuarded = true) (h : ¬s.Idle c) (times : Times) :
    s.execute times c = .ofExcept c (s.attempt c) := by
  rw [execute_eq_attempt hs]
  refine if_neg fun hany => h ?_
  cases hattempt : s.attempt c with
  | ok p =>
    rw [hattempt] at hany
    cases hany
  | error f =>
    rw [hattempt] at hany
    exact (idle_iff hs).2 ⟨f, hattempt, (isExcused_iff hs f).1 hany⟩

/-! ## Top theorem -/

/-- A guarded statement does the same as without its guard, unless that fails because a table or an
index that a CREATE would make is there, or a table that a DROP would take out is not.  Then there
is nothing to do, and it succeeds, answers that it changed nothing, and changes nothing.  Executed
again, it fails as it did before, or succeeds and changes nothing. -/
theorem execute_guarded (hs : s.isGuarded = true) (times times' : Times) (c : Catalog) :
    let plain := s.unguarded.execute times c
    let first := s.execute times c
    let second := s.execute times' first.catalog
    ((∃ f, plain.fault = some f ∧ s.Excuses f) → s.Idle c ∧ first = ⟨c, [.result 0 0], none⟩) ∧
      ((¬∃ f, plain.fault = some f ∧ s.Excuses f) → ¬s.Idle c ∧ first = plain) ∧
      second.catalog = first.catalog ∧
      (first.fault = none → second = ⟨first.catalog, [.result 0 0], none⟩) ∧
      (first.fault ≠ none → second = first) := by
  intro plain first second
  have hplain : plain = .ofExcept c (s.attempt c) := execute_unguarded hs times c
  have hexcused : (∃ f, plain.fault = some f ∧ s.Excuses f) ↔ s.Idle c := by
    rw [hplain, idle_iff hs]
    cases s.attempt c with
    | ok p => simp [Outcome.ofExcept]
    | error f => simp [Outcome.ofExcept]
  rw [hexcused]
  by_cases hidle : s.Idle c
  · have hfirst : first = ⟨c, [.result 0 0], none⟩ := execute_of_idle hs hidle times
    have hsecond : second = ⟨c, [.result 0 0], none⟩ := by
      show s.execute times' first.catalog = _
      rw [hfirst]
      exact execute_of_idle hs hidle times'
    refine ⟨fun _ => ⟨hidle, hfirst⟩, fun h => absurd hidle h, ?_, fun _ => ?_, fun h => ?_⟩
    · rw [hsecond, hfirst]
    · rw [hsecond, hfirst]
    · rw [hsecond, hfirst]
  · have hfirst : first = .ofExcept c (s.attempt c) := execute_of_not_idle hs hidle times
    have hdone : first.fault = none → second = ⟨first.catalog, [.result 0 0], none⟩ := by
      intro hnone
      refine execute_of_idle hs ?_ times'
      rw [hfirst] at hnone ⊢
      cases hattempt : s.attempt c with
      | ok p => exact idle_of_attempt hs hattempt
      | error f =>
        rw [hattempt] at hnone
        cases hnone
    have hfailed : first.fault ≠ none → second = first := by
      intro hfault
      obtain ⟨f, hf⟩ := Option.ne_none_iff_exists'.1 hfault
      have hsame : first.catalog = c := by
        rw [hfirst] at hf ⊢
        exact Outcome.ofExcept_fault hf
      show s.execute times' first.catalog = first
      rw [hsame, hfirst]
      exact execute_of_not_idle hs hidle times'
    refine ⟨fun h => absurd h hidle, fun _ => ⟨hidle, hfirst.trans hplain.symm⟩, ?_, hdone, hfailed⟩
    by_cases hnone : first.fault = none
    · rw [hdone hnone]
    · rw [hfailed hnone]

/-- An index is there: whether its column is does not matter any more. -/
theorem execute_guarded_of_index :
    let c := Catalog.after
      [(fun _ => "", .createTable ⟨"t", false, [⟨"a", "int", false, []⟩], []⟩),
        (fun _ => "", .createIndex ⟨"i", "t", false, false, [⟨"a", false⟩]⟩)]
    let s : Statement := .createIndex ⟨"i", "t", true, true, [⟨"b", false⟩]⟩
    s.isGuarded = true ∧
      (s.unguarded.execute (fun _ => "") c).fault = some (.indexExists "i") ∧
      s.execute (fun _ => "") c = ⟨c, [.result 0 0], none⟩ := by
  intro c s
  have hfault : (s.unguarded.execute (fun _ => "") c).fault = some (.indexExists "i") := by
    decide +kernel
  obtain ⟨hexcused, -⟩ := execute_guarded (s := s) rfl (fun _ => "") (fun _ => "") c
  exact ⟨rfl, hfault, (hexcused ⟨_, hfault, rfl⟩).2⟩

end Statement

end Tabula
