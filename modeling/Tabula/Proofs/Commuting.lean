import Tabula.Proofs.Acceptance
import Tabula.Proofs.Atomicity
import Tabula.Proofs.Filtering
import Tabula.Proofs.Insertion
import Tabula.Proofs.Typing

/-!
# Statements on different tables

What a statement answers and leaves behind is decided by the tables that it names.  Two statements
that name no table in common may be executed in either order.

* `Statement.execute_timeless`: without NOW() and LOCALTIMESTAMP the time makes no difference.
* `Statement.execute_local`: nor do the tables that a statement does not name.
* `Statement.execute_commute`: either order leaves the same catalog, with the same answers.
-/

namespace Tabula

/-! ## Algorithm -/

/-- The tables that a statement names. -/
def Statement.names : Statement → List String
  | .createTable s => [s.table]
  | .createIndex s => [s.table]
  | .insert s => [s.table]
  | .select s => s.tables ++ s.joins.map (·.table)
  | .update s => [s.table]
  | .delete s => [s.table]
  | .truncate table => [table]
  | .dropTable table _ => [table]
  | .grant => []

/-- No default of a table stands for the time. -/
def Table.Timeless (t : Table) : Prop :=
  ∀ column ∈ t.columns, ∀ v ∈ column.default, v.isGenerator = false

/-- No literal that a statement evaluates stands for the time.  CREATE TABLE only notes its
defaults, which an INSERT evaluates. -/
def Statement.LiteralsTimeless : Statement → Prop
  | .insert s => ∀ values ∈ s.rows, ∀ l ∈ values, l.isGenerator = false
  | .select s => ∀ condition ∈ s.conditions, condition.Timeless
  | .update s => (∀ a ∈ s.assignments, a.2.isGenerator = false) ∧
      ∀ condition ∈ s.conditions, condition.Timeless
  | .delete s => ∀ condition ∈ s.conditions, condition.Timeless
  | _ => True

/-- A statement that does not read the time in a catalog, neither for a literal of its own nor for a
default of a table that it names. -/
structure Statement.Timeless (s : Statement) (c : Catalog) : Prop where
  literals : s.LiteralsTimeless
  defaults : ∀ name ∈ s.names, ∀ r, c.get? name = some r → r.table.Timeless

/-- Two catalogs have the same relations under some names. -/
def Catalog.Agree (names : List String) (c d : Catalog) : Prop :=
  ∀ name ∈ names, c.get? name = d.get? name

/-- Two changes leave the same relations under some names, with the same frames. -/
def Catalog.Agree.Changed (names : List String) (p p' : Catalog × List Frame) : Prop :=
  Catalog.Agree names p.1 p'.1 ∧ p.2 = p'.2

/-- Two outcomes are the same answer, and leave the same relations under some names. -/
structure Outcome.Same (names : List String) (o o' : Outcome) : Prop where
  frames : o.frames = o'.frames
  fault : o.fault = o'.fault
  catalogs : Catalog.Agree names o.catalog o'.catalog

/-! ## Lemmas -/

/-! ### Time -/

section Time

variable (now now' : String)

theorem Column.coerce_timeless (a : Column) {l : Literal} (h : l.isGenerator = false) :
    a.coerce now l = a.coerce now' l := by
  have hnot : ¬ l.isGenerator = true := by
    rw [h]
    exact Bool.false_ne_true
  rw [coerce, coerce, if_neg hnot, if_neg hnot]

theorem Column.defaultValue_timeless {a : Column} (h : ∀ v ∈ a.default, v.isGenerator = false) :
    a.defaultValue now = a.defaultValue now' := by
  unfold defaultValue
  cases hdefault : a.default with
  | none => rfl
  | some v =>
    have hv := h v hdefault
    cases v with
    | literal l => exact a.coerce_timeless now now' hv
    | currentTime => cases hv

namespace Relation

theorem supplied?_mem {columns : List String} {values : List Literal} {name : String} {l : Literal}
    (h : supplied? columns values name = some l) : l ∈ values := by
  obtain ⟨i, -, hi⟩ := Option.bind_eq_some_iff.1 h
  exact List.mem_of_getElem? hi

variable {columns : List String} {values : List Literal}
  (hvalues : ∀ l ∈ values, l.isGenerator = false)
include hvalues

theorem newValue_timeless (r : Relation) {a : Column} (h : ∀ v ∈ a.default, v.isGenerator = false) :
    r.newValue now a (supplied? columns values a.name) =
      r.newValue now' a (supplied? columns values a.name) := by
  unfold newValue
  cases hsupplied : supplied? columns values a.name with
  | none => dsimp only; rw [a.defaultValue_timeless now now' h]
  | some l => dsimp only; rw [a.coerce_timeless now now' (hvalues l (supplied?_mem hsupplied))]

theorem newRow_timeless (r : Relation) (cs : List Column)
    (h : ∀ a ∈ cs, ∀ v ∈ a.default, v.isGenerator = false) (position : Nat) :
    r.newRow now columns values position cs = r.newRow now' columns values position cs := by
  induction cs generalizing position with
  | nil => rfl
  | cons a rest ih =>
    rw [newRow, newRow, newValue_timeless now now' hvalues r (h a List.mem_cons_self),
      ih fun b hb => h b (List.mem_cons_of_mem _ hb)]

theorem insert_timeless {r : Relation} (h : r.table.Timeless) (returning : Option String) :
    r.insert now columns values returning = r.insert now' columns values returning := by
  rw [insert_eq, insert_eq, newRow_timeless now now' hvalues r _ h]

end Relation

theorem Relation.resolveAssignments_timeless (t : Table) {assignments : List (String × Literal)}
    (h : ∀ a ∈ assignments, a.2.isGenerator = false) :
    resolveAssignments now t assignments = resolveAssignments now' t assignments := by
  induction assignments with
  | nil => rfl
  | cons a rest ih =>
    obtain ⟨name, l⟩ := a
    unfold resolveAssignments
    simp only [Column.coerce_timeless now now' _ (h (name, l) List.mem_cons_self),
      ih fun b hb => h b (List.mem_cons_of_mem _ hb)]

theorem Table.rowTest_timeless (t : Table) {conditions : List Condition}
    (h : ∀ condition ∈ conditions, condition.Timeless) :
    t.rowTest now conditions = t.rowTest now' conditions := by
  rw [rowTest, rowTest, Condition.Timeless.bindAll_eq h now now']

end Time

/-- Rows are inserted alike at all times. -/
theorem Insert.insertRows_timeless (times times' : Times) (s : Insert) {rows : List (List Literal)}
    (hrows : ∀ values ∈ rows, ∀ l ∈ values, l.isGenerator = false) :
    ∀ (i : Nat) {r : Relation}, r.table.Timeless →
      (s.insertRows times i rows).run r = (s.insertRows times' i rows).run r := by
  induction rows with
  | nil => intro i r _; rfl
  | cons values rest ih =>
    intro i r hr
    have hone : r.insert (times i) s.columns values s.returning =
        r.insert (times' i) s.columns values s.returning :=
      Relation.insert_timeless (times i) (times' i) (hrows values List.mem_cons_self) hr _
    rw [insertRows_run, insertRows_run, hone]
    cases hinsert : r.insert (times' i) s.columns values s.returning with
    | error fault => rfl
    | ok p =>
      obtain ⟨next, inserted⟩ := p
      obtain ⟨row, -, rfl⟩ := Relation.insert_eq_ok hinsert
      have htable : Table.Timeless { r with rows := r.rows ++ [row] }.table := hr
      dsimp only
      rw [ih (fun values hvalues => hrows values (List.mem_cons_of_mem _ hvalues)) (i + 1) htable]

/-- Where no literal and no default stands for the time, the time makes no difference. -/
theorem Statement.execute_timeless (times times' : Times) {s : Statement} {c : Catalog}
    (h : s.Timeless c) : s.execute times c = s.execute times' c := by
  have hunguarded : s.executeUnguarded times s.unguardedClause c =
      s.executeUnguarded times' s.unguardedClause c := by
    cases s with
    | insert s =>
      show (Statement.insert s).execute times c = (Statement.insert s).execute times' c
      cases hr : c.get? s.table with
      | none => rw [Insert.execute_of_none hr, Insert.execute_of_none hr]
      | some r =>
        have htable := h.defaults s.table List.mem_cons_self r hr
        rw [Insert.execute_eq times hr, Insert.execute_eq times' hr,
          s.insertRows_timeless times times' h.literals 0 htable]
    | select s =>
      show s.execute (times 0) c = s.execute (times' 0) c
      unfold Select.execute Select.bind
      simp only [Condition.Timeless.bindAll_eq h.literals (times 0) (times' 0)]
    | update s =>
      show Outcome.ofAction (s.execute (times 0)) c = Outcome.ofAction (s.execute (times' 0)) c
      unfold Update.execute Relation.updateRows
      simp only [Table.rowTest_timeless (times 0) (times' 0) _ h.literals.2,
        Relation.resolveAssignments_timeless (times 0) (times' 0) _ h.literals.1]
    | delete s =>
      show Outcome.ofAction (s.execute (times 0)) c = Outcome.ofAction (s.execute (times' 0)) c
      unfold Delete.execute
      simp only [Table.rowTest_timeless (times 0) (times' 0) _ h.literals]
    | _ => rfl
  rw [Statement.execute_eq, Statement.execute_eq, hunguarded]

/-! ### Tables that are not named -/

namespace Catalog.Agree

variable {names : List String} {c d : Catalog} (h : Catalog.Agree names c d)
include h

theorem get {name : String} (hname : name ∈ names) : c.get name = d.get name := by
  rw [Catalog.get, Catalog.get, h name hname]

theorem set (name : String) (r : Relation) : Catalog.Agree names (c.set name r) (d.set name r) := by
  intro other hother
  rw [get?_set, get?_set, h other hother]

theorem erase (name : String) : Catalog.Agree names (c.erase name) (d.erase name) := by
  intro other hother
  rw [get?_erase, get?_erase, h other hother]

end Catalog.Agree

namespace Select

variable {c d : Catalog}

theorem tableColumns_local {names : List String} (h : Catalog.Agree names c d) :
    tableColumns c names = tableColumns d names := by
  induction names with
  | nil => rfl
  | cons name rest ih =>
    rw [tableColumns, tableColumns, h.get List.mem_cons_self,
      ih fun other hother => h other (List.mem_cons_of_mem _ hother)]

theorem crossedLevels_local {names : List String} (h : Catalog.Agree names c d) :
    crossedLevels c names = crossedLevels d names := by
  induction names with
  | nil => rfl
  | cons name rest ih =>
    rw [crossedLevels, crossedLevels, h.get List.mem_cons_self,
      ih fun other hother => h other (List.mem_cons_of_mem _ hother)]

theorem joinedLevels_local (scope : Scope) {joins : List Join}
    (h : Catalog.Agree (joins.map (·.table)) c d) :
    joinedLevels c scope joins = joinedLevels d scope joins := by
  induction joins with
  | nil => rfl
  | cons j rest ih =>
    rw [joinedLevels, joinedLevels, h.get List.mem_cons_self,
      ih fun other hother => h other (List.mem_cons_of_mem _ hother)]

/-- A query is found alike where its tables are the same. -/
theorem bind_local (now : String) {s : Select}
    (h : Catalog.Agree (Statement.select s).names c d) : s.bind now c = s.bind now d := by
  have htables : Catalog.Agree s.tableNames c d := fun name hname =>
    h name (List.mem_eraseDups.1 hname)
  have hcrossed : Catalog.Agree s.crossedNames c d := fun name hname =>
    h name (List.mem_append_left _ (List.mem_eraseDups.1 (List.mem_of_mem_drop hname)))
  have hjoined : Catalog.Agree (s.joins.map (·.table)) c d := fun name hname =>
    h name (List.mem_append_right _ hname)
  unfold bind
  split
  · rfl
  · next first others hnames =>
    have hfirst := htables.get (hnames ▸ List.mem_cons_self : first ∈ s.tableNames)
    simp only [tableColumns_local htables, hfirst, crossedLevels_local hcrossed,
      joinedLevels_local _ hjoined]

end Select

theorem Outcome.Same.ofAction {names : List String} {c d : Catalog}
    {a : Action Catalog (List Frame)} (ha : a.Atomic) (h : Catalog.Agree names c d)
    (hreach : Alike (Catalog.Agree.Changed names) (a.reach c) (a.reach d)) :
    Outcome.Same names (.ofAction a c) (.ofAction a d) := by
  rw [Outcome.ofAction_eq ha, Outcome.ofAction_eq ha]
  generalize a.reach c = x at hreach
  generalize a.reach d = y at hreach
  cases hreach with
  | ok hchanged => exact ⟨hchanged.2, rfl, hchanged.1⟩
  | error f => exact ⟨rfl, rfl, h⟩

/-- An action on one relation does the same where that relation is the same, also where it fails. -/
theorem Outcome.Same.within {α : Type} {name : String} {c d : Catalog} (a : Action Relation α)
    (answer : α → List Frame) (h : Catalog.Agree [name] c d) :
    Outcome.Same [name] (.ofAction (Catalog.within name a >>= fun x => pure (answer x)) c)
      (.ofAction (Catalog.within name a >>= fun x => pure (answer x)) d) := by
  have hsame : c.get? name = d.get? name := h name List.mem_cons_self
  cases hr : d.get? name with
  | none =>
    rw [Outcome.ofAction_within_of_none a answer (hsame.trans hr),
      Outcome.ofAction_within_of_none a answer hr]
    exact ⟨rfl, rfl, h⟩
  | some r =>
    rw [Outcome.ofAction_within a answer (hsame.trans hr), Outcome.ofAction_within a answer hr]
    cases a.run r with
    | ok x next => exact ⟨rfl, rfl, h.set name next⟩
    | error fault next => exact ⟨rfl, rfl, h.set name next⟩

theorem Outcome.Same.swallow {names : List String} {o o' : Outcome} (h : Outcome.Same names o o') :
    Outcome.Same names o.swallow o'.swallow := by
  refine ⟨?_, rfl, h.catalogs⟩
  rw [Outcome.swallow, Outcome.swallow, h.frames]

section Handlers

variable {c d : Catalog}

theorem CreateTable.execute_local {s : CreateTable} (h : Catalog.Agree [s.table] c d) :
    Outcome.Same [s.table] (.ofAction s.execute c) (.ofAction s.execute d) := by
  refine .ofAction s.atomic_execute h ?_
  rw [execute_reach, execute_reach]
  cases hdefine : s.define with
  | error fault => exact .error fault
  | ok t =>
    have hname : t.name ∈ [s.table] := by
      rw [CreateTable.define_name hdefine]
      exact List.mem_cons_self
    rw [ok_bind, ok_bind, Catalog.create_eq, Catalog.create_eq, Catalog.contains, Catalog.contains,
      h t.name hname]
    split
    · exact .error _
    · exact .ok ⟨h.set _ _, rfl⟩

theorem Select.execute_local (now : String) {s : Select}
    (h : Catalog.Agree (Statement.select s).names c d) :
    Outcome.Same (Statement.select s).names (s.execute now c) (s.execute now d) := by
  unfold Select.execute
  rw [Select.bind_local now h]
  cases s.bind now d with
  | error fault => exact ⟨rfl, rfl, h⟩
  | ok q => exact ⟨rfl, rfl, h⟩

theorem Delete.execute_local (now : String) {s : Delete} (h : Catalog.Agree [s.table] c d) :
    Outcome.Same [s.table] (.ofAction (s.execute now) c) (.ofAction (s.execute now) d) := by
  unfold Delete.execute
  split
  · exact .within _ _ h
  · exact .within _ _ h

theorem Catalog.dropTable_local {table : String} (h : Catalog.Agree [table] c d) :
    Outcome.Same [table] (.ofAction (Catalog.dropTable table) c)
      (.ofAction (Catalog.dropTable table) d) := by
  refine .ofAction (Catalog.atomic_dropTable table) h ?_
  rw [dropTable_reach, dropTable_reach, drop_eq, drop_eq, h.get List.mem_cons_self]
  cases d.get table with
  | error fault => exact .error fault
  | ok r => exact .ok ⟨h.erase table, rfl⟩

end Handlers

/-- A statement answers alike, and leaves the same, where the tables that it names are the same. -/
theorem Statement.execute_local (times : Times) {s : Statement} {c d : Catalog}
    (h : Catalog.Agree s.names c d) :
    Outcome.Same s.names (s.execute times c) (s.execute times d) := by
  have hunguarded : Outcome.Same s.names (s.executeUnguarded times s.unguardedClause c)
      (s.executeUnguarded times s.unguardedClause d) := by
    cases s with
    | createTable s => exact CreateTable.execute_local h
    | createIndex s => exact .within (Relation.addIndex s.define) _ h
    | insert s => exact .within (s.insertRows times 0 s.rows) s.answer h
    | select s => exact Select.execute_local (times 0) h
    | update s => exact .within _ _ h
    | delete s => exact Delete.execute_local (times 0) h
    | truncate table => exact .within Relation.clear _ h
    | dropTable table guarded => exact Catalog.dropTable_local h
    | grant => exact ⟨rfl, rfl, h⟩
  rw [Statement.execute_eq, Statement.execute_eq]
  dsimp only
  rw [hunguarded.fault]
  split
  · exact hunguarded.swallow
  · exact hunguarded

/-! ### One statement before the other -/

theorem Statement.target?_mem {s : Statement} {name : String} (h : s.target? = some name) :
    name ∈ s.names := by
  cases s <;> first
    | exact List.mem_singleton.2 (Option.some.inj h).symm
    | cases h

/-- A statement touches no table that it does not name. -/
theorem Statement.execute_get?_of_not_mem (times : Times) {s : Statement} (c : Catalog)
    {name : String} (h : name ∉ s.names) : (s.execute times c).catalog.get? name = c.get? name :=
  Statement.execute_get?_of_ne times c fun htarget => h (Statement.target?_mem htarget)

/-- A statement answers after another, at other times, as it would have before, and leaves the same
tables under its names, if they name no table in common. -/
theorem Statement.execute_after (times times' others : Times) {a b : Statement} {c : Catalog}
    (hdisjoint : a.names.Disjoint b.names) (hb : b.Timeless c) :
    Outcome.Same b.names (b.execute times (a.execute others c).catalog) (b.execute times' c) := by
  have hagree : Catalog.Agree b.names (a.execute others c).catalog c := fun name hname =>
    Statement.execute_get?_of_not_mem others c fun hmem => hdisjoint hmem hname
  rw [← Statement.execute_timeless times times' hb]
  exact Statement.execute_local times hagree

/-! ## Top theorem -/

/-- Two statements that name no table in common, and do not read the time, commute: in either order,
and whatever the times, each gives the same frames and the same fault or none, and the catalog that
they leave is the same. -/
theorem Statement.execute_commute {c : Catalog} {a b : Statement}
    (hdisjoint : a.names.Disjoint b.names) (ha : a.Timeless c) (hb : b.Timeless c)
    (t₁ t₂ t₃ t₄ : Times) :
    let a₁ := a.execute t₁ c
    let b₁ := b.execute t₂ a₁.catalog
    let b₂ := b.execute t₃ c
    let a₂ := a.execute t₄ b₂.catalog
    b₁.catalog = a₂.catalog ∧ (a₁.frames = a₂.frames ∧ a₁.fault = a₂.fault) ∧
      b₁.frames = b₂.frames ∧ b₁.fault = b₂.fault := by
  intro a₁ b₁ b₂ a₂
  have hbefore : Outcome.Same b.names b₁ b₂ := Statement.execute_after t₂ t₃ t₁ hdisjoint hb
  have hafter : Outcome.Same a.names a₂ a₁ :=
    Statement.execute_after t₄ t₁ t₃ (fun _ hb ha => hdisjoint ha hb) ha
  refine ⟨Catalog.ext fun name => ?_, ⟨hafter.frames.symm, hafter.fault.symm⟩,
    hbefore.frames, hbefore.fault⟩
  by_cases hnameA : name ∈ a.names
  · -- the table is one of the first statement, and the second does not touch it
    have hnameB : name ∉ b.names := fun hmem => hdisjoint hnameA hmem
    rw [Statement.execute_get?_of_not_mem t₂ a₁.catalog hnameB, hafter.catalogs name hnameA]
  · rw [Statement.execute_get?_of_not_mem t₄ b₂.catalog hnameA]
    by_cases hnameB : name ∈ b.names
    · exact hbefore.catalogs name hnameB
    · rw [Statement.execute_get?_of_not_mem t₂ a₁.catalog hnameB,
        Statement.execute_get?_of_not_mem t₁ c hnameA,
        Statement.execute_get?_of_not_mem t₃ c hnameB]

/-- An INSERT that keeps its first row and fails at its second, and a SELECT of two other tables. -/
theorem execute_commute_of_failure :
    let c := Catalog.after
      [(fun _ => "", .createTable ⟨"t", false, [⟨"a", "int", false, [.unique]⟩], []⟩),
        (fun _ => "", .createTable ⟨"u", false, [⟨"x", "text", false, []⟩], []⟩),
        (fun _ => "", .createTable ⟨"v", false, [⟨"x", "text", false, []⟩], []⟩),
        (fun _ => "", .insert ⟨"u", ["x"], [[⟨.string, "k"⟩]], none⟩),
        (fun _ => "", .insert ⟨"v", ["x"], [[⟨.string, "k"⟩]], none⟩)]
    let a : Statement := .insert ⟨"t", ["a"], [[⟨.number, "1"⟩], [⟨.number, "1"⟩]], none⟩
    let b : Statement := .select ⟨none, [.column ⟨some "v", "x"⟩], ["u"],
      [⟨"v", ⟨some "v", "x"⟩, ⟨some "u", "x"⟩⟩], [.always], [], none, none, false⟩
    let a₁ := a.execute (fun _ => "1") c
    let b₁ := b.execute (fun _ => "2") a₁.catalog
    let b₂ := b.execute (fun _ => "3") c
    let a₂ := a.execute (fun _ => "4") b₂.catalog
    a.names.Disjoint b.names ∧ a.Timeless c ∧ b.Timeless c ∧
      a₁.fault = some (.notUnique "t" "a" "1") ∧ b₁.frames = [.header ["x"], .row ["k"], .done] ∧
      b₁.catalog = a₂.catalog ∧ (a₁.frames = a₂.frames ∧ a₁.fault = a₂.fault) ∧
      b₁.frames = b₂.frames ∧ b₁.fault = b₂.fault := by
  intro c a b a₁ b₁ b₂ a₂
  have hdisjoint : a.names.Disjoint b.names := by
    intro name hnameA hnameB
    obtain rfl := List.mem_singleton.1 hnameA
    exact absurd hnameB (by decide)
  have hdefaults : ∀ name ∈ ["t", "u", "v"], ∀ r ∈ c.get? name, ∀ column ∈ r.table.columns,
      column.default = none := by decide +kernel
  have htables : ∀ name ∈ ["t", "u", "v"], ∀ r, c.get? name = some r → r.table.Timeless :=
    fun name hname r hr column hcolumn v hv => by
      rw [hdefaults name hname r hr column hcolumn] at hv
      cases hv
  have ha : a.Timeless c := by
    refine ⟨?_, fun name hname => ?_⟩
    · show ∀ values ∈ [[(⟨.number, "1"⟩ : Literal)], [⟨.number, "1"⟩]], ∀ l ∈ values,
        l.isGenerator = false
      decide
    · obtain rfl := List.mem_singleton.1 hname
      exact htables "t" List.mem_cons_self
  have hb : b.Timeless c := by
    refine ⟨?_, fun name hname => htables name (List.mem_cons_of_mem _ hname)⟩
    intro condition hcondition
    obtain rfl := List.mem_singleton.1 hcondition
    trivial
  exact ⟨hdisjoint, ha, hb, by decide +kernel, by decide +kernel,
    Statement.execute_commute hdisjoint ha hb (fun _ => "1") (fun _ => "2") (fun _ => "3")
      (fun _ => "4")⟩

end Tabula
