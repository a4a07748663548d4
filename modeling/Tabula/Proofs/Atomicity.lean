import Tabula.Proofs.Reach

/-!
# Statements that fail change nothing

What a handler wrote before a fault stays written, and the handlers other than that of INSERT write
nothing before their last check (`Proofs/Checking`).  A guard is put around a handler and writes
nothing of its own.

Main statement (`Statement.execute_atomic`): a statement that fails leaves the catalog as it was,
unless it is an INSERT of several rows; and no statement touches a relation that it does not target.
-/

namespace Tabula

/-! ## Failures -/

/-- An atomic action that fails leaves the catalog as it was. -/
theorem Outcome.ofAction_fault {a : Action Catalog (List Frame)} (ha : a.Atomic) {c : Catalog}
    {f : Fault} (h : (Outcome.ofAction a c).fault = some f) :
    (Outcome.ofAction a c).catalog = c := by
  rw [Outcome.ofAction_eq ha] at h ⊢
  exact Outcome.ofExcept_fault h

/-- A statement that fails leaves the catalog as it was, unless it is an INSERT of several rows. -/
theorem Statement.execute_fault_catalog {times : Times} {s : Statement} {c : Catalog} {f : Fault}
    (hrows : ∀ i, s = .insert i → i.rows.length ≤ 1) (h : (s.execute times c).fault = some f) :
    (s.execute times c).catalog = c := by
  have h := Statement.execute_fault h
  rw [Statement.execute_catalog]
  cases s with
  | createTable s => exact Outcome.ofAction_fault s.atomic_execute h
  | createIndex s => exact Outcome.ofAction_fault s.atomic_execute h
  | insert s => exact Outcome.ofAction_fault (s.atomic_execute times (hrows s rfl)) h
  | select s => exact Select.execute_catalog (times 0) s c
  | update s => exact Outcome.ofAction_fault (s.atomic_execute (times 0)) h
  | delete s => exact Outcome.ofAction_fault (s.atomic_execute (times 0)) h
  | truncate table => exact Outcome.ofAction_fault (Catalog.atomic_truncate table) h
  | dropTable table ifExists => exact Outcome.ofAction_fault (Catalog.atomic_dropTable table) h
  | grant => rfl

/-! ## Frames -/

/-- A change touches no other relation. -/
theorem Catalog.Change.get?_of_ne {name other : String} {c next : Catalog}
    (h : Catalog.Change name c next) (hne : other ≠ name) : next.get? other = c.get? other := by
  cases h with
  | create => rw [Catalog.get?_set, if_neg hne]
  | alter => rw [Catalog.get?_set, if_neg hne]
  | drop => rw [Catalog.get?_erase, if_neg hne]

/-- A statement touches no relation that it does not target. -/
theorem Statement.execute_get?_of_ne (times : Times) {s : Statement} (c : Catalog) {other : String}
    (hne : s.target? ≠ some other) : (s.execute times c).catalog.get? other = c.get? other := by
  rcases s.execute_change times c with hsame | ⟨name, htarget, hchange⟩
  · rw [hsame]
  · exact hchange.get?_of_ne fun heq => hne (heq ▸ htarget)

/-! ## Top theorem -/

/-- Of every statement on every catalog: if it fails, and is no INSERT of several rows, the catalog
is as it was; every relation but the one that it targets is as it was; and a SELECT and a GRANT
change nothing. -/
theorem Statement.execute_atomic (times : Times) (s : Statement) (c : Catalog) :
    ((∀ i, s = .insert i → i.rows.length ≤ 1) → ∀ f, (s.execute times c).fault = some f →
        (s.execute times c).catalog = c) ∧
      (∀ other, s.target? ≠ some other →
        (s.execute times c).catalog.get? other = c.get? other) ∧
      ((∃ q, s = .select q) ∨ s = .grant → (s.execute times c).catalog = c) := by
  refine ⟨fun hrows f hf => ?_, fun other hne => ?_, fun hs => ?_⟩
  · exact Statement.execute_fault_catalog hrows hf
  · exact Statement.execute_get?_of_ne times c hne
  · rw [Statement.execute_catalog]
    rcases hs with ⟨q, rfl⟩ | rfl
    · exact Select.execute_catalog (times 0) q c
    · rfl

/-- An INSERT that a unique column refuses, on a table that is there with another one. -/
theorem Statement.execute_atomic_of_duplicate :
    let c := Catalog.after
      [(fun _ => "", .createTable ⟨"t", false, [⟨"name", "text", false, [.unique]⟩], []⟩),
        (fun _ => "", .createTable ⟨"u", false, [⟨"name", "text", false, []⟩], []⟩),
        (fun _ => "", .insert ⟨"t", ["name"], [[⟨.string, "Bob"⟩]], none⟩)]
    let s : Statement := .insert ⟨"t", ["name"], [[⟨.string, "Bob"⟩]], none⟩
    (s.execute (fun _ => "") c).fault = some (.notUnique "t" "name" "Bob") ∧
      (s.execute (fun _ => "") c).catalog = c ∧
      (s.execute (fun _ => "") c).catalog.get? "u" = c.get? "u" := by
  intro c s
  have hfault : (s.execute (fun _ => "") c).fault = some (.notUnique "t" "name" "Bob") := by
    decide +kernel
  obtain ⟨hsame, hframe, -⟩ := s.execute_atomic (fun _ => "") c
  refine ⟨hfault, hsame (fun i hi => ?_) _ hfault, hframe "u" (by decide)⟩
  obtain rfl := Statement.insert.inj hi
  exact Nat.le_refl 1

end Tabula
