import Mathlib.Logic.Relation
import Tabula.Proofs.Checking
import Tabula.Proofs.Definitions

/-!
# What statements do to a catalog

`Relation.Change` lists the operations on one relation, `Catalog.Change` what one statement can do
to a catalog, and `Catalog.Reachable` holds of every catalog that statements lead to from a new
engine, whether they succeed or fail.

* `CreateIndex.execute_eq_ok` and its siblings: what a handler that succeeded put in its place.
* `Statement.execute_change`: a statement changes the relation that it targets, or nothing.
* `Catalog.Reachable.relation`: what holds of every new relation and is kept by every operation
  holds of every relation of every reachable catalog.
* `Catalog.Reachable.runBatch`: batches lead to no other catalogs.
-/

namespace Tabula

/-! ## Changes -/

/-- A relation and what one operation makes of it. -/
inductive Relation.Change (r : Relation) : Relation → Prop where
  | insert {now : String} {columns : List String} {values : List Literal}
      {returning : Option String} {next : Relation} {inserted : Inserted} :
      r.insert now columns values returning = .ok (next, inserted) → Change r next
  | delete {test : RowTest} {next : Relation} {n : Nat} :
      r.deleteWhere test = .ok (next, n) → Change r next
  | truncate : Change r r.truncate.1
  | update {now : String} {assignments : List (String × Literal)} {test : RowTest}
      {next : Relation} {n : Nat} :
      r.updateWhere now assignments test = .ok (next, n) → Change r next
  | index {i : Index} {next : Relation} : r.createIndex i = .ok next → Change r next

/-- A relation and what any number of operations make of it. -/
abbrev Relation.Changes : Relation → Relation → Prop :=
  Relation.ReflTransGen Relation.Change

/-- A catalog and what one statement makes of it, if it does anything to the relation of a name. -/
inductive Catalog.Change (name : String) (c : Catalog) : Catalog → Prop where
  | create {s : CreateTable} {t : Table} :
      s.define = .ok t → t.name = name → c.get? name = none →
      Change name c (c.set name { table := t })
  | alter {r next : Relation} :
      c.get? name = some r → r.Changes next → Change name c (c.set name next)
  | drop {r : Relation} : c.get? name = some r → Change name c (c.erase name)

/-- The table whose relation a statement may change. -/
def Statement.target? : Statement → Option String
  | .createTable s => some s.table
  | .createIndex s => some s.table
  | .insert s => some s.table
  | .select _ => none
  | .update s => some s.table
  | .delete s => some s.table
  | .truncate table => some table
  | .dropTable table _ => some table
  | .grant => none

/-- The catalog that statements lead to from a new engine, each with the times that it reads. -/
def Catalog.after (script : List (Times × Statement)) : Catalog :=
  script.foldl (fun c (times, s) => (s.execute times c).catalog) {}

/-- The catalogs that statements lead to from a new engine, whether they succeed or fail. -/
inductive Catalog.Reachable : Catalog → Prop where
  | new : Reachable {}
  | step {c : Catalog} (times : Times) (s : Statement) :
      Reachable c → Reachable (s.execute times c).catalog

/-! ## Lemmas -/

/-- An atomic action leaves the catalog as it was, or the one that it reaches. -/
theorem Outcome.ofAction_cases {a : Action Catalog (List Frame)} (ha : a.Atomic) (c : Catalog) :
    (Outcome.ofAction a c).catalog = c ∨
      ∃ next frames, a.reach c = .ok (next, frames) ∧ (Outcome.ofAction a c).catalog = next := by
  rw [Outcome.ofAction_eq ha]
  cases a.reach c with
  | ok p => exact Or.inr ⟨p.1, p.2, rfl, rfl⟩
  | error fault => exact Or.inl rfl

theorem Outcome.ofExcept_fault {c : Catalog} {x : Except Fault (Catalog × List Frame)} {f : Fault}
    (h : (Outcome.ofExcept c x).fault = some f) : (Outcome.ofExcept c x).catalog = c := by
  cases x with
  | ok p => cases h
  | error fault => rfl

/-- A guard changes the answer at most, never what becomes of the catalog. -/
theorem Statement.execute_eq (times : Times) (s : Statement) (c : Catalog) :
    s.execute times c =
      let o := s.executeUnguarded times s.unguardedClause c
      if s.isGuarded && o.fault.any s.isExcused then o.swallow else o := by
  unfold Statement.execute Statement.clause
  cases hg : s.isGuarded with
  | true => rfl
  | false =>
    cases s <;> rfl

theorem Statement.execute_catalog (times : Times) (s : Statement) (c : Catalog) :
    (s.execute times c).catalog = (s.executeUnguarded times s.unguardedClause c).catalog := by
  rw [Statement.execute_eq]
  dsimp only
  split <;> rfl

theorem Statement.execute_fault {times : Times} {s : Statement} {c : Catalog} {f : Fault}
    (h : (s.execute times c).fault = some f) :
    (s.executeUnguarded times s.unguardedClause c).fault = some f := by
  rw [Statement.execute_eq] at h
  dsimp only at h
  split at h
  · cases h
  · exact h

/-! ## What each handler does -/

theorem CreateTable.execute_change {s : CreateTable} {c next : Catalog} {frames : List Frame}
    (h : s.execute.reach c = .ok (next, frames)) : Catalog.Change s.table c next := by
  simp only [CreateTable.execute_reach, bind_eq_ok, pure_eq_ok, Prod.mk.injEq] at h
  obtain ⟨t, ht, next', hc, rfl, -⟩ := h
  have hname : t.name = s.table := CreateTable.define_name ht
  rw [Catalog.create_eq] at hc
  unfold Catalog.contains at hc
  split at hc
  · cases hc
  · next hnone =>
    obtain rfl := Except.ok.inj hc
    rw [hname] at hnone ⊢
    exact .create ht hname (by simpa using hnone)

theorem CreateIndex.execute_eq_ok {s : CreateIndex} {c next : Catalog} {frames : List Frame}
    (h : s.execute.reach c = .ok (next, frames)) :
    ∃ r indexed, c.get? s.table = some r ∧ r.createIndex s.define = .ok indexed ∧
      next = c.set s.table indexed := by
  simp only [CreateIndex.execute_reach, bind_eq_ok, pure_eq_ok, Prod.mk.injEq] at h
  obtain ⟨r, hr, indexed, hindex, rfl, -⟩ := h
  exact ⟨r, indexed, Catalog.get_eq_ok.1 hr, hindex, rfl⟩

theorem CreateIndex.execute_change {s : CreateIndex} {c next : Catalog} {frames : List Frame}
    (h : s.execute.reach c = .ok (next, frames)) : Catalog.Change s.table c next := by
  obtain ⟨r, indexed, hr, hindex, rfl⟩ := execute_eq_ok h
  exact .alter hr (.single (.index hindex))

/-- The rows of an INSERT after the first are inserted into what the first reaches. -/
theorem Insert.insertRows_after (times : Times) (s : Insert) (i : Nat) (values : List Literal)
    (rest : List (List Literal)) (r : Relation) :
    (s.insertRows times i (values :: rest)).after r =
      match r.insert (times i) s.columns values s.returning with
      | .ok (next, _) => (s.insertRows times (i + 1) rest).after next
      | .error _ => r := by
  unfold Action.after
  rw [insertRows_run]
  cases r.insert (times i) s.columns values s.returning with
  | error fault => rfl
  | ok p =>
    dsimp only
    cases (s.insertRows times (i + 1) rest).run p.1 <;> rfl

/-- Rows are inserted one after the other, also those before the one that is refused. -/
theorem Insert.insertRows_changes (times : Times) (s : Insert) (rows : List (List Literal)) :
    ∀ (i : Nat) (r : Relation), r.Changes ((s.insertRows times i rows).after r) := by
  induction rows with
  | nil => intro i r; exact .refl
  | cons values rest ih =>
    intro i r
    rw [insertRows_after]
    cases hi : r.insert (times i) s.columns values s.returning with
    | error fault => exact .refl
    | ok p => exact .head (.insert hi) (ih (i + 1) p.1)

/-- An INSERT leaves the rows that it inserted, whether it succeeds or fails. -/
theorem Insert.execute_after {times : Times} {s : Insert} {c : Catalog} {r : Relation}
    (hr : c.get? s.table = some r) :
    (s.execute times).after c = c.set s.table ((s.insertRows times 0 s.rows).after r) := by
  unfold execute
  rw [Action.after_bind_pure, Catalog.within_after _ hr]

theorem Insert.execute_change {times : Times} {s : Insert} {c : Catalog} :
    (s.execute times).after c = c ∨ Catalog.Change s.table c ((s.execute times).after c) := by
  cases hr : c.get? s.table with
  | none =>
    left
    unfold execute
    rw [Action.after_bind_pure, Catalog.within_after_of_none _ hr]
  | some r =>
    right
    rw [Insert.execute_after hr]
    exact .alter hr (s.insertRows_changes times s.rows 0 r)

theorem Update.execute_eq_ok {now : String} {s : Update} {c next : Catalog} {frames : List Frame}
    (h : (s.execute now).reach c = .ok (next, frames)) :
    ∃ r test updated n, c.get? s.table = some r ∧
      r.updateWhere now s.assignments test = .ok (updated, n) ∧ next = c.set s.table updated := by
  simp only [Update.execute_reach, bind_eq_ok, pure_eq_ok, Prod.mk.injEq] at h
  obtain ⟨r, hr, test, -, ⟨updated, n⟩, hupdate, rfl, -⟩ := h
  exact ⟨r, test, updated, n, Catalog.get_eq_ok.1 hr, hupdate, rfl⟩

theorem Update.execute_change {now : String} {s : Update} {c next : Catalog} {frames : List Frame}
    (h : (s.execute now).reach c = .ok (next, frames)) : Catalog.Change s.table c next := by
  obtain ⟨r, test, updated, n, hr, hupdate, rfl⟩ := execute_eq_ok h
  exact .alter hr (.single (.update hupdate))

theorem Catalog.truncate_eq_ok {table : String} {c next : Catalog} {frames : List Frame}
    (h : (Catalog.truncate table).reach c = .ok (next, frames)) :
    ∃ r, c.get? table = some r ∧ next = c.set table r.truncate.1 := by
  simp only [Catalog.truncate_reach, bind_eq_ok, pure_eq_ok, Prod.mk.injEq] at h
  obtain ⟨r, hr, rfl, -⟩ := h
  exact ⟨r, Catalog.get_eq_ok.1 hr, rfl⟩

theorem Catalog.truncate_change {table : String} {c next : Catalog} {frames : List Frame}
    (h : (Catalog.truncate table).reach c = .ok (next, frames)) : Catalog.Change table c next := by
  obtain ⟨r, hr, rfl⟩ := truncate_eq_ok h
  exact .alter hr (.single .truncate)

/-- A DELETE takes out all rows, or those that a test holds for. -/
theorem Delete.execute_eq_ok {now : String} {s : Delete} {c next : Catalog} {frames : List Frame}
    (h : (s.execute now).reach c = .ok (next, frames)) :
    ∃ r, c.get? s.table = some r ∧ (next = c.set s.table r.truncate.1 ∨
      ∃ test left n, r.deleteWhere test = .ok (left, n) ∧ next = c.set s.table left) := by
  rw [Delete.execute_reach] at h
  split at h
  · obtain ⟨r, hr, hnext⟩ := Catalog.truncate_eq_ok h
    exact ⟨r, hr, Or.inl hnext⟩
  · simp only [bind_eq_ok, pure_eq_ok, Prod.mk.injEq] at h
    obtain ⟨r, hr, test, -, ⟨left, n⟩, hdelete, rfl, -⟩ := h
    exact ⟨r, Catalog.get_eq_ok.1 hr, Or.inr ⟨test, left, n, hdelete, rfl⟩⟩

theorem Delete.execute_change {now : String} {s : Delete} {c next : Catalog} {frames : List Frame}
    (h : (s.execute now).reach c = .ok (next, frames)) : Catalog.Change s.table c next := by
  obtain ⟨r, hr, rfl | ⟨test, left, n, hdelete, rfl⟩⟩ := execute_eq_ok h
  · exact .alter hr (.single .truncate)
  · exact .alter hr (.single (.delete hdelete))

theorem Catalog.dropTable_eq_ok {table : String} {c next : Catalog} {frames : List Frame}
    (h : (Catalog.dropTable table).reach c = .ok (next, frames)) :
    ∃ r, c.get? table = some r ∧ next = c.erase table := by
  simp only [Catalog.dropTable_reach, Catalog.drop_eq, bind_eq_ok, pure_eq_ok, Prod.mk.injEq] at h
  obtain ⟨_, ⟨r, hr, rfl⟩, rfl, -⟩ := h
  exact ⟨r, Catalog.get_eq_ok.1 hr, rfl⟩

theorem Catalog.dropTable_change {table : String} {c next : Catalog} {frames : List Frame}
    (h : (Catalog.dropTable table).reach c = .ok (next, frames)) : Catalog.Change table c next := by
  obtain ⟨r, hr, rfl⟩ := dropTable_eq_ok h
  exact .drop hr

theorem Select.execute_catalog (now : String) (s : Select) (c : Catalog) :
    (s.execute now c).catalog = c := by
  unfold Select.execute
  split <;> rfl

/-- An atomic action makes a change of its own, or none. -/
theorem Outcome.ofAction_change {name : String} {c : Catalog} {a : Action Catalog (List Frame)}
    (ha : a.Atomic)
    (h : ∀ {next frames}, a.reach c = .ok (next, frames) → Catalog.Change name c next) :
    (Outcome.ofAction a c).catalog = c ∨ Catalog.Change name c (Outcome.ofAction a c).catalog := by
  rcases Outcome.ofAction_cases ha c with hc | ⟨next, frames, hx, hc⟩
  · exact Or.inl hc
  · exact Or.inr (hc ▸ h hx)

/-- A statement changes the relation that it targets, or nothing. -/
theorem Statement.execute_change (times : Times) (s : Statement) (c : Catalog) :
    (s.execute times c).catalog = c ∨
      ∃ name, s.target? = some name ∧ Catalog.Change name c (s.execute times c).catalog := by
  have lift : ∀ {name : String} {o : Outcome}, s.target? = some name →
      o.catalog = c ∨ Catalog.Change name c o.catalog →
      o.catalog = c ∨ ∃ name, s.target? = some name ∧ Catalog.Change name c o.catalog :=
    fun htarget h => h.imp_right fun hchange => ⟨_, htarget, hchange⟩
  rw [Statement.execute_catalog]
  cases s with
  | createTable s =>
    exact lift rfl (Outcome.ofAction_change s.atomic_execute CreateTable.execute_change)
  | createIndex s =>
    exact lift rfl (Outcome.ofAction_change s.atomic_execute CreateIndex.execute_change)
  | insert s =>
    exact lift rfl (Outcome.ofAction_catalog (s.execute times) c ▸ Insert.execute_change)
  | select s => exact Or.inl (Select.execute_catalog (times 0) s c)
  | update s =>
    exact lift rfl (Outcome.ofAction_change (s.atomic_execute (times 0)) Update.execute_change)
  | delete s =>
    exact lift rfl (Outcome.ofAction_change (s.atomic_execute (times 0)) Delete.execute_change)
  | truncate table =>
    exact lift rfl (Outcome.ofAction_change (Catalog.atomic_truncate table) Catalog.truncate_change)
  | dropTable table ifExists =>
    exact lift rfl
      (Outcome.ofAction_change (Catalog.atomic_dropTable table) Catalog.dropTable_change)
  | grant => exact Or.inl rfl

/-! ## Runs -/

theorem Catalog.Reachable.after (script : List (Times × Statement)) :
    (Catalog.after script).Reachable := by
  have hfrom : ∀ (script : List (Times × Statement)) (c : Catalog), c.Reachable →
      (script.foldl (fun c (times, s) => (Statement.execute times s c).catalog) c).Reachable := by
    intro script
    induction script with
    | nil => intro c h; exact h
    | cons step rest ih => intro c h; exact ih _ (.step step.1 step.2 h)
  exact hfrom script {} .new

theorem Catalog.after_concat (script : List (Times × Statement)) (times : Times) (s : Statement) :
    Catalog.after (script ++ [(times, s)]) = (s.execute times (Catalog.after script)).catalog := by
  unfold Catalog.after
  rw [List.foldl_append]
  rfl

/-- A script leads to every reachable catalog. -/
theorem Catalog.Reachable.exists_script {c : Catalog} (h : c.Reachable) :
    ∃ script, c = Catalog.after script := by
  induction h with
  | new => exact ⟨[], rfl⟩
  | step times s _ ih =>
    obtain ⟨script, rfl⟩ := ih
    exact ⟨script ++ [(times, s)], (Catalog.after_concat script times s).symm⟩

/-- What every operation keeps is kept by any number of them. -/
theorem Relation.Changes.keep {P : Relation → Prop}
    (keep : ∀ {r next : Relation}, P r → r.Change next → P next)
    {r next : Relation} (h : r.Changes next) (hr : P r) : P next := by
  induction h with
  | refl => exact hr
  | tail _ hstep ih => exact keep ih hstep

/-- What holds of new relations and is kept by every operation holds after a change of a catalog. -/
theorem Catalog.Change.relation {P : Relation → Prop} {name : String} {c next : Catalog}
    (new : ∀ {s : CreateTable} {t : Table}, s.define = .ok t → P { table := t })
    (keep : ∀ {r next : Relation}, P r → r.Change next → P next)
    (h : Catalog.Change name c next) (hc : ∀ other r, c.get? other = some r → P r) :
    ∀ other r, next.get? other = some r → P r := by
  intro other r hr
  cases h with
  | create ht =>
    rw [Catalog.get?_set] at hr
    split at hr
    · obtain rfl := Option.some.inj hr
      exact new ht
    · exact hc other r hr
  | alter hold hchanges =>
    rw [Catalog.get?_set] at hr
    split at hr
    · obtain rfl := Option.some.inj hr
      exact Relation.Changes.keep keep hchanges (hc name _ hold)
    · exact hc other r hr
  | drop =>
    rw [Catalog.get?_erase] at hr
    split at hr
    · cases hr
    · exact hc other r hr

/-- What holds of new relations and is kept by every operation holds of every relation that
statements lead to. -/
theorem Catalog.Reachable.relation {P : Relation → Prop}
    (new : ∀ {s : CreateTable} {t : Table}, s.define = .ok t → P { table := t })
    (keep : ∀ {r next : Relation}, P r → r.Change next → P next)
    {c : Catalog} (h : c.Reachable) : ∀ name r, c.get? name = some r → P r := by
  induction h with
  | new => intro name r hr; cases hr
  | step times s _ ih =>
    rcases s.execute_change times _ with hsame | ⟨target, -, hchange⟩
    · rw [hsame]; exact ih
    · exact hchange.relation new keep ih

theorem Catalog.Reachable.executeAll {clock : Calendar.Clock} (statements : List Statement) :
    ∀ {i : Nat} {c : Catalog}, c.Reachable →
      (Statement.executeAll clock i statements c).catalog.Reachable := by
  induction statements with
  | nil => intro i c h; exact h
  | cons s rest ih =>
    intro i c h
    have hfirst : (s.execute (clock i) c).catalog.Reachable := .step (clock i) s h
    unfold Statement.executeAll
    dsimp only
    split
    · exact hfirst
    · exact ih hfirst

/-- Batches of statements lead to no other catalogs. -/
theorem Catalog.Reachable.runBatch {clock : Calendar.Clock} {text : String} {c : Catalog}
    (h : c.Reachable) : (c.runBatch clock text).catalog.Reachable := by
  unfold Catalog.runBatch
  split
  · exact h
  · exact h.executeAll _

end Tabula
