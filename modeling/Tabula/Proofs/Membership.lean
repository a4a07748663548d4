import Tabula.Lookup
import Tabula.Sink

/-!
# Key lists that were met

`distinct` asks of every row whether its key list was met before.  A `KeyTree` answers by walking a
tree key by key, without a mark where a key list ends; a `Seen` answers from the key lists
themselves.

* `KeyTree.insert_fresh`, `KeyTree.has_insert`: a key list is new if it leads out of the tree, and
  afterwards every beginning of it stays in the tree.
* `after_has`: what was met after any key lists are their beginnings, and nothing else.
* `Seen.fresh_unless_begun`: both give the same answers, and a key list is new unless it is empty or
  an earlier one begins with it; among key lists of one width that is unless it was met.
-/

namespace Tabula

/-! ## Algorithm -/

/-- The keys that were met next, each with the tree of those after it. -/
inductive KeyTree where
  | node (children : List (String × KeyTree))

namespace KeyTree

/-- A tree in which no key was met. -/
def empty : KeyTree :=
  .node []

/-- Whether a key list stays in the tree. -/
def has : KeyTree → List String → Bool
  | _, [] => true
  | .node children, key :: rest =>
    match children.lookup key with
    | none => false
    | some child => child.has rest

/-- Walks along a key list, making the nodes that are missing, and says whether any was. -/
def insert : KeyTree → List String → KeyTree × Bool
  | t, [] => (t, false)
  | .node children, key :: rest =>
    let (child, fresh) := ((children.lookup key).getD empty).insert rest
    (.node ((key, child) :: children.filter (·.1 != key)),
      (children.lookup key).isNone || fresh)

/-- The tree after key lists were given to a new one. -/
def after (given : List (List String)) : KeyTree :=
  given.foldl (fun t keys => (t.insert keys).1) empty

end KeyTree

/-- What is remembered after key lists were given to a new `Seen`. -/
def Seen.after (given : List (List String)) : Seen :=
  given.foldl (fun s keys => (s.insert keys).1) {}

/-! ## Lemmas -/

/-- If giving a key list adds its beginnings to what is met, then giving several adds theirs. -/
theorem after_has {σ : Type} {insert : σ → List String → σ × Bool} {has : σ → List String → Bool}
    (h : ∀ s keys other, has (insert s keys).1 other = (has s other || other.isPrefixOf keys))
    (given : List (List String)) : ∀ (s : σ) (other : List String),
      has (given.foldl (fun s keys => (insert s keys).1) s) other =
        (has s other || given.any other.isPrefixOf) := by
  induction given with
  | nil => intro s other; exact (Bool.or_false _).symm
  | cons keys rest ih =>
    intro s other
    rw [List.foldl_cons, ih, h, List.any_cons, Bool.or_assoc]

/-! ### The tree -/

namespace KeyTree

theorem has_node (children : List (String × KeyTree)) (key : String) (rest : List String) :
    (node children).has (key :: rest) = (children.lookup key).any (·.has rest) := by
  rw [has]
  cases children.lookup key <;> rfl

/-- Nothing but the empty key list stays in an empty tree. -/
theorem has_empty (keys : List String) : empty.has keys = keys.isEmpty := by
  cases keys <;> rfl

/-- A key list is new if it leads out of the tree. -/
theorem insert_fresh (keys : List String) : ∀ t : KeyTree, (t.insert keys).2 = !t.has keys := by
  induction keys with
  | nil => intro t; rfl
  | cons key rest ih =>
    rintro ⟨children⟩
    rw [has_node]
    show ((children.lookup key).isNone || (((children.lookup key).getD empty).insert rest).2) = _
    rw [ih]
    cases children.lookup key <;> rfl

/-- What stays in the tree after a key list was given is what did before, and its beginnings. -/
theorem has_insert (keys : List String) : ∀ (t : KeyTree) (other : List String),
    (t.insert keys).1.has other = (t.has other || other.isPrefixOf keys) := by
  induction keys with
  | nil =>
    intro t other
    cases other with
    | nil => rfl
    | cons o others => exact (Bool.or_false _).symm
  | cons key rest ih =>
    rintro ⟨children⟩ other
    cases other with
    | nil => rfl
    | cons o others =>
      have hchild := ih ((children.lookup key).getD empty) others
      show (node ((key, (((children.lookup key).getD empty).insert rest).1) ::
        children.filter (·.1 != key))).has (o :: others) = _
      rw [has_node, has_node, lookup_cons_ite, lookup_filter_ne, List.isPrefixOf_cons_cons]
      by_cases ho : o = key
      · -- the walk goes on in the child of the key
        subst ho
        rw [if_pos rfl, Option.any_some, hchild, beq_self_eq_true, Bool.true_and]
        cases children.lookup o with
        | some child => rfl
        | none =>
          rw [Option.getD_none, has_empty, Option.any_none, Bool.false_or]
          cases others <;> rfl
      · -- the child of another key is as it was
        rw [if_neg ho, if_neg ho, beq_false_of_ne ho, Bool.false_and, Bool.or_false]

end KeyTree

/-! ### The key lists themselves -/

namespace Seen

theorem insert_fresh (s : Seen) (keys : List String) : (s.insert keys).2 = !s.contains keys := by
  unfold insert
  cases s.contains keys <;> rfl

/-- A beginning of a key list that counts as met does so too. -/
theorem contains_of_begins {s : Seen} {keys other : List String} (h : s.contains keys = true)
    (hother : other <+: keys) : s.contains other = true := by
  unfold contains at h ⊢
  rcases Bool.or_eq_true_iff.1 h with hempty | hany
  · obtain rfl := List.isEmpty_iff.1 hempty
    rw [List.prefix_nil.1 hother]
    rfl
  · obtain ⟨met, hmet, hbegins⟩ := List.any_eq_true.1 hany
    have hother := hother.trans (List.isPrefixOf_iff_prefix.1 hbegins)
    rw [List.any_eq_true.2 ⟨met, hmet, List.isPrefixOf_iff_prefix.2 hother⟩, Bool.or_true]

theorem contains_insert (s : Seen) (keys other : List String) :
    (s.insert keys).1.contains other = (s.contains other || other.isPrefixOf keys) := by
  unfold insert
  cases hkeys : s.contains keys with
  | false =>
    rw [if_neg Bool.false_ne_true]
    simp only [contains, List.any_cons, Bool.or_assoc]
    rw [Bool.or_comm (other.isPrefixOf keys)]
  | true =>
    rw [if_pos rfl]
    cases hbegins : other.isPrefixOf keys with
    | false => exact (Bool.or_false _).symm
    | true =>
      rw [contains_of_begins hkeys (List.isPrefixOf_iff_prefix.1 hbegins)]
      rfl

end Seen

/-! ## Top theorem -/

/-- A key list that is given after others is new exactly if it is not empty and none of them begins
with it, whether they are kept in a tree or as they are.  If all are of one width, which is not zero,
it is new exactly if it is none of them. -/
theorem Seen.fresh_unless_begun (before : List (List String)) (keys : List String) :
    ((KeyTree.after before).insert keys).2 = ((Seen.after before).insert keys).2 ∧
    (((Seen.after before).insert keys).2 = true ↔
      keys ≠ [] ∧ ∀ earlier ∈ before, ¬keys <+: earlier) ∧
    (keys ≠ [] → (∀ earlier ∈ before, earlier.length = keys.length) →
      (((Seen.after before).insert keys).2 = true ↔ keys ∉ before)) := by
  have hseen : ((Seen.after before).insert keys).2 =
      !(keys.isEmpty || before.any keys.isPrefixOf) := by
    have hnew : ({} : Seen).contains keys = keys.isEmpty := Bool.or_false _
    rw [insert_fresh, Seen.after, after_has contains_insert, hnew]
  have htree : ((KeyTree.after before).insert keys).2 =
      !(keys.isEmpty || before.any keys.isPrefixOf) := by
    rw [KeyTree.insert_fresh, KeyTree.after,
      after_has fun t keys => KeyTree.has_insert keys t, KeyTree.has_empty]
  have hfresh : ((Seen.after before).insert keys).2 = true ↔
      keys ≠ [] ∧ ∀ earlier ∈ before, ¬keys <+: earlier := by
    rw [hseen]
    simp
  refine ⟨htree.trans hseen.symm, hfresh, fun hne hwidth => ?_⟩
  rw [hfresh]
  constructor
  · intro h hmem
    exact h.2 keys hmem (List.prefix_refl keys)
  · intro hnot
    refine ⟨hne, fun earlier hearlier hbegins => hnot ?_⟩
    -- of key lists of one width none begins with another
    rw [hbegins.eq_of_length (hwidth earlier hearlier).symm]
    exact hearlier

/-- After two key lists that begin alike, a third that does so too is new, and the first is not. -/
theorem Seen.fresh_unless_begun_of_pairs :
    ((Seen.after [["a", "b"], ["a", "c"]]).insert ["a", "d"]).2 = true ∧
      ((Seen.after [["a", "b"], ["a", "c"]]).insert ["a", "b"]).2 = false := by
  constructor
  · exact ((fresh_unless_begun [["a", "b"], ["a", "c"]] ["a", "d"]).2.2 (by decide)
      (by decide)).2 (by decide)
  · have hmet := (fresh_unless_begun [["a", "b"], ["a", "c"]] ["a", "b"]).2.2 (by decide) (by decide)
    exact Bool.eq_false_iff.2 fun hfresh => hmet.1 hfresh (by decide)

/-- A key list that was not given before does not count as new if a longer one begins with it. -/
theorem Seen.prefix_not_fresh :
    ¬∀ (before : List (List String)) (keys : List String),
      ((Seen.after before).insert keys).2 = true ↔ keys ∉ before := by
  intro hnew
  have hbegins : ((Seen.after [["a", "b"]]).insert ["a"]).2 = false := by decide
  rw [(hnew [["a", "b"]] ["a"]).2 (by decide)] at hbegins
  cases hbegins

end Tabula
