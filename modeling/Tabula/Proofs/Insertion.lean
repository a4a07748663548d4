import Tabula.Proofs.Operations
import Tabula.Proofs.Reach

/-!
# How many rows an INSERT leaves

An INSERT appends its rows one after the other, and each row is checked against the ones that came
before it.  `Insert.Adds` is that run without a refusal.  A row that is refused ends the statement
and takes none of the rows before it back: an UPDATE and a DELETE change all rows or none, an INSERT
of several rows does not.

* `Insert.Adds.rows`: what a run appends.
* `Insert.insertRows_adds`: the loop runs through all rows, or through those before the first that is
  refused.
* `Insert.execute_rows`: what the statement leaves behind.
-/

namespace Tabula

namespace Insert

/-- Rows that are inserted one after the other, the first of them as row `i` of the statement: the
relation that they lead to, and what is reported of each. -/
inductive Adds (times : Times) (s : Insert) :
    Nat → Relation → List (List Literal) → Relation → List Inserted → Prop where
  | nil {i : Nat} {r : Relation} : Adds times s i r [] r []
  | cons {i : Nat} {r next last : Relation} {values : List Literal} {rest : List (List Literal)}
      {inserted : Inserted} {others : List Inserted} :
      r.insert (times i) s.columns values s.returning = .ok (next, inserted) →
      Adds times s (i + 1) next rest last others →
      Adds times s i r (values :: rest) last (inserted :: others)

variable {times : Times} {s : Insert}

/-- A run appends one row for each list of values.  Each is the row that its values make of the
relation as it is then, the earlier rows of the statement included. -/
theorem Adds.rows {i : Nat} {r last : Relation} {rows : List (List Literal)}
    {inserted : List Inserted} (h : Adds times s i r rows last inserted) :
    ∃ added : List Row, last = { r with rows := r.rows ++ added } ∧ added.length = rows.length ∧
      ∀ (k : Nat) (values : List Literal) (row : Row), rows[k]? = some values →
        added[k]? = some row →
        Relation.newRow (times (i + k)) { r with rows := r.rows ++ added.take k } s.columns values 0
          r.table.columns = .ok row := by
  induction h with
  | nil =>
    refine ⟨[], ?_, rfl, fun k values row hvalues => ?_⟩
    · rw [List.append_nil]
    · simp at hvalues
  | @cons i r next last values rest inserted others hfirst _ ih =>
    obtain ⟨row, hrow, rfl⟩ := Relation.insert_eq_ok hfirst
    obtain ⟨added, rfl, hlen, hmade⟩ := ih
    refine ⟨row :: added, ?_, by simp [hlen], fun k values' row' hvalues hadded => ?_⟩
    · simp
    · cases k with
      | zero =>
        obtain rfl := Option.some.inj hvalues
        obtain rfl := Option.some.inj hadded
        simpa using hrow
      | succ k =>
        have hlater := hmade k values' row' hvalues hadded
        rw [List.append_assoc, List.singleton_append, Nat.add_right_comm] at hlater
        exact hlater

/-- The loop runs through all rows, or through those before the first that is refused. -/
theorem insertRows_adds (times : Times) (s : Insert) (rows : List (List Literal)) :
    ∀ (i : Nat) (r : Relation),
      (∃ last inserted, (s.insertRows times i rows).run r = .ok inserted last ∧
        Adds times s i r rows last inserted) ∨
      ∃ before values rest f last inserted, rows = before ++ values :: rest ∧
        (s.insertRows times i rows).run r = .error f last ∧
        Adds times s i r before last inserted ∧
        last.insert (times (i + before.length)) s.columns values s.returning = .error f := by
  induction rows with
  | nil => intro i r; exact Or.inl ⟨r, [], rfl, .nil⟩
  | cons values rest ih =>
    intro i r
    cases hfirst : r.insert (times i) s.columns values s.returning with
    | error f =>
      refine Or.inr ⟨[], values, rest, f, r, [], rfl, ?_, .nil, hfirst⟩
      rw [insertRows_run, hfirst]
    | ok p =>
      obtain ⟨next, first⟩ := p
      rcases ih (i + 1) next with ⟨last, inserted, hrest, hadds⟩ | hrefused
      · refine Or.inl ⟨last, first :: inserted, ?_, .cons hfirst hadds⟩
        rw [insertRows_run, hfirst]
        dsimp only
        rw [hrest]
      · obtain ⟨before, values', rest', f, last, inserted, rfl, hrest, hadds, hlast⟩ := hrefused
        refine Or.inr ⟨values :: before, values', rest', f, last, first :: inserted, rfl, ?_,
          .cons hfirst hadds, ?_⟩
        · rw [insertRows_run, hfirst]
          dsimp only
          rw [hrest]
        · rw [List.length_cons, Nat.add_comm before.length 1, ← Nat.add_assoc]
          exact hlast

/-- An INSERT is refused where there is no table. -/
theorem execute_of_none {c : Catalog} (hr : c.get? s.table = none) :
    (Statement.insert s).execute times c = ⟨c, [], some (.noTable s.table)⟩ :=
  Outcome.ofAction_within_of_none (s.insertRows times 0 s.rows) s.answer hr

/-- What becomes of an INSERT is what its loop ends with. -/
theorem execute_eq (times : Times) {s : Insert} {c : Catalog} {r : Relation}
    (hr : c.get? s.table = some r) :
    (Statement.insert s).execute times c =
      match (s.insertRows times 0 s.rows).run r with
      | .ok inserted last => ⟨c.set s.table last, s.answer inserted, none⟩
      | .error f last => ⟨c.set s.table last, [], some f⟩ := by
  refine (Outcome.ofAction_within (s.insertRows times 0 s.rows) s.answer hr).trans ?_
  cases (s.insertRows times 0 s.rows).run r <;> rfl

/-- An INSERT appends rows in the order of the statement, each of them made of its own values.
Either they are all its rows and it succeeds, or they are the rows before the first that is refused,
and its fault is the refusal of that row by the relation that the others are in already. -/
theorem execute_rows (times : Times) {s : Insert} {c : Catalog} {r : Relation}
    (hr : c.get? s.table = some r) :
    let o := (Statement.insert s).execute times c
    ∃ added : List Row,
      o.catalog = c.set s.table { r with rows := r.rows ++ added } ∧
      (∀ (k : Nat) (values : List Literal) (row : Row), s.rows[k]? = some values →
        added[k]? = some row →
        Relation.newRow (times k) { r with rows := r.rows ++ added.take k } s.columns values 0
          r.table.columns = .ok row) ∧
      ((o.fault = none ∧ added.length = s.rows.length) ∨
        ∃ values f, s.rows[added.length]? = some values ∧
          Relation.insert (times added.length) { r with rows := r.rows ++ added } s.columns values
            s.returning = .error f ∧
          o.fault = some f ∧ o.frames = []) := by
  intro o
  have ho : o = _ := execute_eq times hr
  rcases insertRows_adds times s s.rows 0 r with
    ⟨last, inserted, hrun, hadds⟩ |
      ⟨before, values, rest, f, last, inserted, hrows, hrun, hadds, hlast⟩
  · rw [ho, hrun]
    obtain ⟨added, rfl, hlen, hmade⟩ := hadds.rows
    refine ⟨added, rfl, fun k values row hvalues hrow => ?_, Or.inl ⟨rfl, hlen⟩⟩
    have := hmade k values row hvalues hrow
    rwa [Nat.zero_add] at this
  · rw [ho, hrun]
    obtain ⟨added, rfl, hlen, hmade⟩ := hadds.rows
    refine ⟨added, rfl, fun k values' row hvalues hrow => ?_, Or.inr ⟨values, f, ?_, ?_, rfl, rfl⟩⟩
    · have hk : k < before.length := by
        have := (List.getElem?_eq_some_iff.1 hrow).1
        omega
      rw [hrows, List.getElem?_append_left hk] at hvalues
      have := hmade k values' row hvalues hrow
      rwa [Nat.zero_add] at this
    · rw [hlen, hrows, List.getElem?_append_right (Nat.le_refl _), Nat.sub_self]
      rfl
    · rw [Nat.zero_add] at hlast
      rw [hlen]
      exact hlast

end Insert

/-- The key of the third row is that of the first: two rows stay. -/
theorem execute_rows_of_duplicate :
    let c := Catalog.after
      [(fun _ => "", .createTable ⟨"t", false, [⟨"a", "int", false, [.unique]⟩], []⟩)]
    let s : Insert := ⟨"t", ["a"], [[⟨.number, "1"⟩], [⟨.number, "2"⟩], [⟨.number, "1"⟩]], none⟩
    let o := (Statement.insert s).execute (fun _ => "") c
    ∃ r, c.get? "t" = some r ∧ ∃ added : List Row, added.length = 2 ∧
      o.catalog = c.set "t" { r with rows := r.rows ++ added } := by
  intro c s o
  have hr : c.get? "t" =
      some ⟨⟨"t", [⟨"a", "int", false, true, false, none⟩]⟩, [], []⟩ := by decide +kernel
  obtain ⟨added, hcatalog, hmade, hend⟩ := s.execute_rows (fun _ => "") hr
  refine ⟨_, hr, added, ?_, hcatalog⟩
  have hrows : (o.catalog.get? "t").map (·.rows.length) = some 2 := by decide +kernel
  rw [hcatalog, Catalog.get?_set, if_pos rfl] at hrows
  simpa using hrows

/-- An INSERT is not all or nothing: the second of two rows is refused for the key of the first, and
the first stays. -/
theorem execute_rows_not_atomic :
    ¬ ∀ (times : Times) (s : Insert) (c : Catalog) (r : Relation), c.Reachable →
      c.get? s.table = some r →
      let o := (Statement.insert s).execute times c
      (o.fault = none ∧ ∃ added : List Row, added.length = s.rows.length ∧
        o.catalog.get? s.table = some { r with rows := r.rows ++ added }) ∨
      (o.fault ≠ none ∧ (o.catalog.get? s.table).map (·.rows) = some r.rows) := by
  intro hatomic
  let c := Catalog.after
    [(fun _ => "", .createTable ⟨"t", false, [⟨"a", "int", false, [.unique]⟩], []⟩)]
  let s : Insert := ⟨"t", ["a"], [[⟨.number, "1"⟩], [⟨.number, "1"⟩]], none⟩
  let o := (Statement.insert s).execute (fun _ => "") c
  have hr : c.get? "t" =
      some ⟨⟨"t", [⟨"a", "int", false, true, false, none⟩]⟩, [], []⟩ := by decide +kernel
  have hfault : o.fault = some (.notUnique "t" "a" "1") := by decide +kernel
  have hrows : (o.catalog.get? "t").map (·.rows) = some [[.integer 1]] := by decide +kernel
  rcases hatomic (fun _ => "") s c _ (.after _) hr with ⟨hnone, -⟩ | ⟨-, hsame⟩
  · exact absurd (hfault.symm.trans hnone) (by decide)
  · exact absurd (hrows.symm.trans hsame) (by decide)

end Tabula
