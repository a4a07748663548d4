import Tabula.Fault

/-!
# Actions

An action reads and writes a state, and may end with a fault.  What it wrote before the fault stays
written: nothing is taken back.  `Action.run` gives the state that is left with the result or the
fault, and there are two views of it.

* `Action.after`: the state that is left, whatever the end.
* `Action.reach`: the state and the result, or the fault alone.  An action that is made of steps
  reaches what its steps reach one after the other (`Action.reach_bind`).
-/

namespace Tabula

/-- What reads and writes a state of type `σ`, and ends with a result of type `α` or with a
fault. -/
abbrev Action (σ α : Type) : Type :=
  EStateM Fault σ α

namespace Action

variable {σ α β : Type}

/-- A computation that writes nothing, as a step of an action. -/
def check : Except Fault α → Action σ α
  | .ok a => pure a
  | .error fault => throw fault

/-- The state that an action leaves, whether it succeeds or fails. -/
def after (a : Action σ α) (s : σ) : σ :=
  match a.run s with
  | .ok _ next => next
  | .error _ next => next

/-- The state and the result of an action that succeeds, or the fault alone. -/
def reach (a : Action σ α) (s : σ) : Except Fault (σ × α) :=
  match a.run s with
  | .ok x next => .ok (next, x)
  | .error fault _ => .error fault

/-! ## Lemmas -/

theorem run_eq_ok {a : Action σ α} {s next : σ} {x : α} :
    a.run s = .ok x next ↔ a.reach s = .ok (next, x) := by
  unfold reach
  cases a.run s with
  | ok y last => simp [and_comm]
  | error fault last => simp

theorem reach_eq_error {a : Action σ α} {s : σ} {fault : Fault} :
    a.reach s = .error fault ↔ a.run s = .error fault (a.after s) := by
  unfold reach after
  cases a.run s with
  | ok y last => simp
  | error fault last => simp

/-- A state that is reached is left. -/
theorem after_of_reach {a : Action σ α} {s next : σ} {x : α} (h : a.reach s = .ok (next, x)) :
    a.after s = next := by
  unfold after
  rw [run_eq_ok.2 h]

@[simp] theorem reach_pure (x : α) (s : σ) : (pure x : Action σ α).reach s = .ok (s, x) := rfl

@[simp] theorem reach_get (s : σ) : (get : Action σ σ).reach s = .ok (s, s) := rfl

@[simp] theorem reach_getThe (s : σ) : (getThe σ : Action σ σ).reach s = .ok (s, s) := rfl

@[simp] theorem reach_set (next s : σ) : (set next : Action σ PUnit).reach s = .ok (next, ()) := rfl

@[simp] theorem reach_modify (f : σ → σ) (s : σ) :
    (modify f : Action σ PUnit).reach s = .ok (f s, ()) := rfl

@[simp] theorem reach_check (x : Except Fault α) (s : σ) :
    (check x : Action σ α).reach s = x >>= fun a => .ok (s, a) := by
  cases x <;> rfl

/-- Steps one after the other: each begins with what the one before it reached. -/
@[simp] theorem reach_bind (a : Action σ α) (f : α → Action σ β) (s : σ) :
    (a >>= f).reach s = a.reach s >>= fun p => (f p.2).reach p.1 := by
  unfold reach
  rw [EStateM.run_bind]
  cases a.run s <;> rfl

@[simp] theorem after_check (x : Except Fault α) (s : σ) : (check x : Action σ α).after s = s := by
  cases x <;> rfl

/-- What two steps leave is what the second leaves, or what the first leaves where it fails. -/
theorem after_bind (a : Action σ α) (f : α → Action σ β) (s : σ) :
    (a >>= f).after s =
      match a.reach s with
      | .ok (next, x) => (f x).after next
      | .error _ => a.after s := by
  unfold after reach
  rw [EStateM.run_bind]
  cases a.run s <;> rfl

/-- A result at the end makes no difference to what is left. -/
theorem after_bind_pure (a : Action σ α) (f : α → β) (s : σ) :
    (a >>= fun x => pure (f x)).after s = a.after s := by
  rw [after_bind]
  cases hs : a.reach s with
  | ok p => exact (after_of_reach hs).symm
  | error fault => rfl

end Action

end Tabula
