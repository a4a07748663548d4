import Tabula.Execution
import Tabula.Proofs.Attempt

/-!
# Checks before writes

What an action wrote before a fault stays written, so an action that fails leaves the state as it was
only if all that can fail comes before all that writes.  The operations are put together in that way,
but for two.  A name is taken out of a catalog before it is known to be there: if it is not, nothing
was taken out.  A relation is written back to its catalog before the fault of its action is passed
on: if the action left it as it was, so is the catalog.  The rows of an INSERT come one after the
other, and so each is checked after the rows before it are written.

* `Action.Reads`, `Action.Sure`, `Action.Atomic`: an action that writes nothing, one that never
  fails, and one that leaves the state as it was where it fails.
* `Action.Reads.bind`, `Action.Atomic.bind`: checks come first and writes last.
* `Relation.atomic_insertRow` and its siblings, `Catalog.atomic_within`: operations.
* `Update.atomic_execute` and its siblings: handlers.
* `Outcome.ofAction_eq`: an atomic action takes place as a whole or not at all.
-/

namespace Tabula

/-! ## Algorithm -/

namespace Action

variable {σ α β : Type}

/-- An action that writes nothing. -/
def Reads (a : Action σ α) : Prop :=
  ∀ s, a.after s = s

/-- An action that never fails. -/
def Sure (a : Action σ α) : Prop :=
  ∀ s fault, a.reach s ≠ .error fault

/-- An action that leaves the state as it was where it fails. -/
def Atomic (a : Action σ α) : Prop :=
  ∀ s fault, a.reach s = .error fault → a.after s = s

end Action

/-- The outcome of a change that takes place as a whole or not at all. -/
def Outcome.ofExcept (c : Catalog) : Except Fault (Catalog × List Frame) → Outcome
  | .ok (next, frames) => ⟨next, frames, none⟩
  | .error fault => ⟨c, [], some fault⟩

/-! ## Steps -/

namespace Action

variable {σ α β : Type}

theorem reads_get : (get : Action σ σ).Reads := fun _ => rfl

theorem reads_getThe : (getThe σ : Action σ σ).Reads := fun _ => rfl

theorem reads_check (x : Except Fault α) : (check x : Action σ α).Reads := after_check x

theorem sure_pure (x : α) : (pure x : Action σ α).Sure := fun _ _ h => nomatch h

theorem sure_set (next : σ) : (set next : Action σ PUnit).Sure := fun _ _ h => nomatch h

theorem sure_modify (f : σ → σ) : (modify f : Action σ PUnit).Sure := fun _ _ h => nomatch h

theorem Sure.bind {a : Action σ α} {f : α → Action σ β} (ha : a.Sure) (hf : ∀ x, (f x).Sure) :
    (a >>= f).Sure := by
  intro s fault h
  rw [reach_bind] at h
  cases hs : a.reach s with
  | error fault' => exact ha s fault' hs
  | ok p =>
    rw [hs] at h
    exact hf p.2 p.1 fault h

theorem Sure.atomic {a : Action σ α} (ha : a.Sure) : a.Atomic :=
  fun s fault h => absurd h (ha s fault)

/-- What only reads may come before what is atomic. -/
theorem Reads.bind {a : Action σ α} {f : α → Action σ β} (ha : a.Reads)
    (hf : ∀ x, (f x).Atomic) : (a >>= f).Atomic := by
  intro s fault h
  rw [reach_bind] at h
  rw [after_bind]
  cases hs : a.reach s with
  | error fault' => exact ha s
  | ok p =>
    obtain ⟨next, x⟩ := p
    obtain rfl : s = next := (ha s).symm.trans (after_of_reach hs)
    rw [hs] at h
    exact hf x s fault h

/-- What never fails may come after what is atomic. -/
theorem Atomic.bind {a : Action σ α} {f : α → Action σ β} (ha : a.Atomic) (hf : ∀ x, (f x).Sure) :
    (a >>= f).Atomic := by
  intro s fault h
  rw [reach_bind] at h
  rw [after_bind]
  cases hs : a.reach s with
  | error fault' => exact ha s fault' hs
  | ok p =>
    rw [hs] at h
    exact absurd h (hf p.2 p.1 fault)

/-- A result at the end makes no difference. -/
theorem Atomic.bind_pure {a : Action σ α} (ha : a.Atomic) (f : α → β) :
    (a >>= fun x => pure (f x)).Atomic :=
  ha.bind fun x => sure_pure (f x)

end Action

/-! ## Operations on a relation -/

namespace Relation

open Tabula.Action

theorem atomic_insertRow (now : String) (columns : List String) (values : List Literal)
    (returning : Option String) : (insertRow now columns values returning).Atomic := by
  refine reads_get.bind fun r => ?_
  refine (reads_check _).bind fun _ => ?_
  refine (reads_check _).bind fun row => ?_
  refine (reads_check _).bind fun returned => ?_
  exact (sure_set _).atomic.bind_pure _

theorem atomic_deleteRows (test : RowTest) : (deleteRows test).Atomic := by
  refine reads_get.bind fun r => ?_
  refine (reads_check _).bind fun hits => ?_
  exact (sure_set _).atomic.bind_pure _

theorem atomic_clear : clear.Atomic :=
  reads_get.bind fun _ => (sure_set _).atomic.bind_pure _

theorem atomic_updateRows (now : String) (assignments : List (String × Literal)) (test : RowTest) :
    (updateRows now assignments test).Atomic := by
  refine reads_get.bind fun r => ?_
  refine (reads_check _).bind fun resolved => ?_
  refine (reads_check _).bind fun hits => ?_
  refine (reads_check _).bind fun _ => ?_
  exact (sure_set _).atomic.bind_pure _

theorem atomic_makeUnique (indexed : IndexColumn) : (makeUnique indexed).Atomic := by
  refine reads_get.bind fun r => ?_
  refine (reads_check _).bind fun position => ?_
  refine (reads_check _).bind fun _ => ?_
  exact (sure_set _).atomic

/-- The column is made unique before the index is noted, which cannot fail any more. -/
theorem atomic_addIndex (index : Index) : (addIndex index).Atomic := by
  refine reads_get.bind fun r => ?_
  refine (reads_check _).bind fun _ => ?_
  refine (reads_check _).bind fun _ => ?_
  have hunique : (index.soleUnique?.forM makeUnique).Atomic := by
    cases index.soleUnique? with
    | none => exact (sure_pure _).atomic
    | some indexed => exact atomic_makeUnique indexed
  exact hunique.bind fun _ => sure_modify _

end Relation

/-- The rows of an INSERT after the first are inserted into what the first reaches; one that is
refused leaves the relation as it is. -/
theorem Insert.insertRows_run (times : Times) (s : Insert) (i : Nat) (values : List Literal)
    (rest : List (List Literal)) (r : Relation) :
    (s.insertRows times i (values :: rest)).run r =
      match r.insert (times i) s.columns values s.returning with
      | .error fault => .error fault r
      | .ok (next, inserted) =>
        match (s.insertRows times (i + 1) rest).run next with
        | .ok others last => .ok (inserted :: others) last
        | .error fault last => .error fault last := by
  rw [insertRows, EStateM.run_bind]
  cases hi : r.insert (times i) s.columns values s.returning with
  | ok p =>
    rw [Action.run_eq_ok.2 hi]
    dsimp only
    rw [EStateM.run_bind]
    cases (s.insertRows times (i + 1) rest).run p.1 <;> rfl
  | error fault =>
    rw [Action.reach_eq_error.1 hi, Relation.atomic_insertRow _ _ _ _ r fault hi]

/-- Of one row at most, an INSERT is checked before it is written. -/
theorem Insert.atomic_insertRows (times : Times) (s : Insert) (i : Nat)
    {rows : List (List Literal)} (h : rows.length ≤ 1) : (s.insertRows times i rows).Atomic := by
  match rows with
  | [] => exact (Action.sure_pure _).atomic
  | [values] =>
    exact (Relation.atomic_insertRow _ _ _ _).bind fun _ =>
      (Action.sure_pure _).bind fun _ => Action.sure_pure _

/-! ## Operations on a catalog -/

namespace Catalog

open Tabula.Action

theorem get_eq_ok {c : Catalog} {name : String} {r : Relation} :
    c.get name = .ok r ↔ c.get? name = some r := by
  unfold Catalog.get
  cases c.get? name with
  | none => simp
  | some s => simp

theorem atomic_addTable (t : Table) : (addTable t).Atomic := by
  refine reads_getThe.bind fun c => ?_
  refine (reads_check _).bind fun _ => ?_
  exact (sure_modify _).atomic

theorem create_eq (c : Catalog) (t : Table) :
    c.create t = if c.contains t.name then .error (.tableExists t.name)
      else .ok (c.set t.name { table := t }) := by
  simp only [create, addTable, reach_bind, reach_getThe, reach_check, reach_modify, ok_bind,
    checkNew]
  split <;> rfl

theorem drop_eq (c : Catalog) (name : String) : c.drop name = do
    let _ ← c.get name
    return c.erase name := by
  simp only [drop, removeTable, reach_bind, reach_getThe, reach_modify, reach_check, ok_bind]
  cases c.get name <;> rfl

/-- The name is taken out first: if there is no relation of it, nothing is taken out. -/
theorem atomic_removeTable (name : String) : (removeTable name).Atomic := by
  intro c fault h
  have hafter : (removeTable name).after c = c.erase name := by
    simp only [removeTable, after_bind, reach_getThe, reach_modify, after_check]
  rw [hafter]
  refine erase_of_get?_eq_none (Option.eq_none_iff_forall_ne_some.2 fun r hr => ?_)
  simp only [removeTable, reach_bind, reach_getThe, reach_modify, reach_check, ok_bind,
    get_eq_ok.2 hr] at h
  cases h

section Within

variable {α : Type} {name : String} {a : Action Relation α} {c : Catalog} {r : Relation}

/-- What an action on the relation of a name writes is written to the catalog, also where it
fails. -/
theorem within_run (a : Action Relation α) (hr : c.get? name = some r) :
    (within name a).run c =
      match a.run r with
      | .ok x next => .ok x (c.set name next)
      | .error fault next => .error fault (c.set name next) := by
  have hget : (check (c.get name) : Action Catalog Relation).run c = .ok r c := by
    rw [get_eq_ok.2 hr]
    rfl
  unfold within
  rw [EStateM.run_bind]
  show ((check (c.get name) : Action Catalog Relation) >>= _).run c = _
  rw [EStateM.run_bind, hget]
  dsimp only [Action.after, Action.reach]
  cases a.run r <;> rfl

theorem within_after (a : Action Relation α) (hr : c.get? name = some r) :
    (within name a).after c = c.set name (a.after r) := by
  unfold Action.after
  rw [within_run a hr]
  cases a.run r <;> rfl

/-- Nothing is written where there is no relation of the name. -/
theorem within_run_of_none (a : Action Relation α) (hr : c.get? name = none) :
    (within name a).run c = .error (.noTable name) c := by
  have hget : (check (c.get name) : Action Catalog Relation).run c = .error (.noTable name) c := by
    unfold Catalog.get
    rw [hr]
    rfl
  unfold within
  rw [EStateM.run_bind]
  show ((check (c.get name) : Action Catalog Relation) >>= _).run c = _
  rw [EStateM.run_bind, hget]

theorem within_after_of_none (a : Action Relation α) (hr : c.get? name = none) :
    (within name a).after c = c := by
  unfold Action.after
  rw [within_run_of_none a hr]

theorem within_reach (name : String) (a : Action Relation α) (c : Catalog) :
    (within name a).reach c = do
      let r ← c.get name
      let (next, x) ← a.reach r
      return (c.set name next, x) := by
  simp only [within, reach_bind, reach_getThe, reach_check, reach_modify, ok_bind]
  cases c.get name with
  | error fault => rfl
  | ok r =>
    simp only [ok_bind]
    cases hs : a.reach r with
    | error fault => rfl
    | ok p =>
      rw [after_of_reach hs]
      rfl

/-- What a change to a relation reaches, with its answer. -/
theorem within_answer_reach (name : String) (a : Action Relation α) (answer : α → List Frame)
    (c : Catalog) :
    (within name a >>= fun x => pure (answer x)).reach c = do
      let r ← c.get name
      let (next, x) ← a.reach r
      return (c.set name next, answer x) := by
  simp only [reach_bind, within_reach, bind_assoc]
  rfl

/-- The relation is put back before the fault is passed on: if it is as it was, so is the
catalog. -/
theorem atomic_within (ha : a.Atomic) : (within name a).Atomic := by
  intro c fault h
  cases hr : c.get? name with
  | none => exact within_after_of_none a hr
  | some r =>
    rw [within_reach, get_eq_ok.2 hr, ok_bind] at h
    rw [within_after a hr]
    cases hs : a.reach r with
    | error fault' => rw [ha r fault' hs, set_get hr]
    | ok p =>
      rw [hs] at h
      cases h

end Within

end Catalog

/-! ## Handlers -/

section Handlers

open Tabula.Action

theorem CreateTable.execute_reach (s : CreateTable) (c : Catalog) :
    s.execute.reach c = do return (← c.create (← s.define), [.result 0 1]) := by
  simp only [execute, reach_bind, reach_check]
  cases s.define with
  | error fault => rfl
  | ok t =>
    simp only [ok_bind, Catalog.create]
    cases (Catalog.addTable t).reach c <;> rfl

theorem CreateTable.atomic_execute (s : CreateTable) : s.execute.Atomic := by
  refine (reads_check _).bind fun t => ?_
  exact (Catalog.atomic_addTable t).bind_pure _

theorem CreateIndex.execute_reach (s : CreateIndex) (c : Catalog) :
    s.execute.reach c = do
      let r ← c.get s.table
      return (c.set s.table (← r.createIndex s.define), [.result 0 1]) := by
  rw [execute, Catalog.within_answer_reach]
  cases c.get s.table with
  | error fault => rfl
  | ok r =>
    simp only [ok_bind, Relation.createIndex]
    cases (Relation.addIndex s.define).reach r <;> rfl

theorem CreateIndex.atomic_execute (s : CreateIndex) : s.execute.Atomic :=
  (Catalog.atomic_within (Relation.atomic_addIndex s.define)).bind_pure _

theorem Insert.execute_reach (times : Times) (s : Insert) (c : Catalog) :
    (s.execute times).reach c = do
      let r ← c.get s.table
      let (next, inserted) ← (s.insertRows times 0 s.rows).reach r
      return (c.set s.table next, s.answer inserted) :=
  Catalog.within_answer_reach s.table _ s.answer c

theorem Insert.atomic_execute (times : Times) {s : Insert} (h : s.rows.length ≤ 1) :
    (s.execute times).Atomic :=
  (Catalog.atomic_within (s.atomic_insertRows times 0 h)).bind_pure _

theorem Update.execute_reach (now : String) (s : Update) (c : Catalog) :
    (s.execute now).reach c = do
      let r ← c.get s.table
      let test ← r.table.rowTest now s.conditions
      let (next, n) ← r.updateWhere now s.assignments test
      return (c.set s.table next, [.result 0 n]) := by
  rw [execute, Catalog.within_answer_reach]
  simp only [reach_bind, reach_get, reach_check, ok_bind, bind_assoc]
  rfl

theorem Update.atomic_execute (now : String) (s : Update) : (s.execute now).Atomic := by
  refine (Catalog.atomic_within ?_).bind_pure _
  refine reads_get.bind fun r => ?_
  refine (reads_check _).bind fun test => ?_
  exact Relation.atomic_updateRows now s.assignments test

theorem Catalog.truncate_reach (table : String) (c : Catalog) :
    (Catalog.truncate table).reach c = do
      let r ← c.get table
      let (next, n) := r.truncate
      return (c.set table next, [.result 0 n]) :=
  within_answer_reach table Relation.clear _ c

theorem Catalog.atomic_truncate (table : String) : (Catalog.truncate table).Atomic :=
  (atomic_within Relation.atomic_clear).bind_pure _

theorem Delete.execute_reach (now : String) (s : Delete) (c : Catalog) :
    (s.execute now).reach c =
      if s.conditions.isEmpty then (Catalog.truncate s.table).reach c
      else do
        let r ← c.get s.table
        let test ← r.table.rowTest now s.conditions
        let (next, n) ← r.deleteWhere test
        return (c.set s.table next, [.result 0 n]) := by
  unfold execute
  split
  · rfl
  · rw [Catalog.within_answer_reach]
    simp only [reach_bind, reach_get, reach_check, ok_bind, bind_assoc]
    rfl

theorem Delete.atomic_execute (now : String) (s : Delete) : (s.execute now).Atomic := by
  unfold execute
  split
  · exact Catalog.atomic_truncate s.table
  · refine (Catalog.atomic_within ?_).bind_pure _
    refine reads_get.bind fun r => ?_
    refine (reads_check _).bind fun test => ?_
    exact Relation.atomic_deleteRows test

theorem Catalog.dropTable_reach (table : String) (c : Catalog) :
    (Catalog.dropTable table).reach c = do return (← c.drop table, [.result 0 1]) := by
  simp only [dropTable, reach_bind, drop]
  cases (removeTable table).reach c <;> rfl

theorem Catalog.atomic_dropTable (table : String) : (Catalog.dropTable table).Atomic :=
  (atomic_removeTable table).bind_pure _

end Handlers

theorem Outcome.ofAction_catalog (a : Action Catalog (List Frame)) (c : Catalog) :
    (Outcome.ofAction a c).catalog = a.after c := by
  unfold ofAction Action.after
  cases a.run c <;> rfl

/-- What becomes of an action on a relation that is there. -/
theorem Outcome.ofAction_within {α : Type} {name : String} (a : Action Relation α)
    (answer : α → List Frame) {c : Catalog} {r : Relation} (hr : c.get? name = some r) :
    Outcome.ofAction (Catalog.within name a >>= fun x => pure (answer x)) c =
      match a.run r with
      | .ok x next => ⟨c.set name next, answer x, none⟩
      | .error fault next => ⟨c.set name next, [], some fault⟩ := by
  unfold ofAction
  rw [EStateM.run_bind, Catalog.within_run a hr]
  cases a.run r <;> rfl

/-- An action on a relation that is not there is refused. -/
theorem Outcome.ofAction_within_of_none {α : Type} {name : String} (a : Action Relation α)
    (answer : α → List Frame) {c : Catalog} (hr : c.get? name = none) :
    Outcome.ofAction (Catalog.within name a >>= fun x => pure (answer x)) c =
      ⟨c, [], some (.noTable name)⟩ := by
  unfold ofAction
  rw [EStateM.run_bind, Catalog.within_run_of_none a hr]

/-- An atomic action takes place as a whole or not at all. -/
theorem Outcome.ofAction_eq {a : Action Catalog (List Frame)} (ha : a.Atomic) (c : Catalog) :
    Outcome.ofAction a c = .ofExcept c (a.reach c) := by
  cases hs : a.reach c with
  | ok p =>
    unfold ofAction
    rw [Action.run_eq_ok.2 hs]
    rfl
  | error fault =>
    unfold ofAction
    rw [Action.reach_eq_error.1 hs, ha c fault hs]
    rfl

/-! ## Statements that take place as a whole -/

namespace Statement

theorem execute_update (times : Times) (s : Update) (c : Catalog) :
    (Statement.update s).execute times c = .ofExcept c ((s.execute (times 0)).reach c) :=
  Outcome.ofAction_eq (s.atomic_execute (times 0)) c

theorem execute_delete (times : Times) (s : Delete) (c : Catalog) :
    (Statement.delete s).execute times c = .ofExcept c ((s.execute (times 0)).reach c) :=
  Outcome.ofAction_eq (s.atomic_execute (times 0)) c

theorem execute_truncate (times : Times) (table : String) (c : Catalog) :
    (Statement.truncate table).execute times c = .ofExcept c ((Catalog.truncate table).reach c) :=
  Outcome.ofAction_eq (Catalog.atomic_truncate table) c

end Statement

end Tabula
