import ChipEight.Fault

/-!
Operations that may meet a fault. An attempt is the state that an operation
left, faulty or not, and beside it the result or the fault. What follows a
fault is not done, and the state stays as the fault left it.
-/

namespace ChipEight

/-- The state that an operation left and what came of it. -/
abbrev Attempt (σ α : Type) := σ × Except Fault α

namespace Attempt

variable {σ τ α β : Type}

def done (s : σ) : Attempt σ Unit := (s, .ok ())

def andThen (a : Attempt σ α) (next : σ → α → Attempt σ β) : Attempt σ β :=
  match a.2 with
  | .ok x => next a.1 x
  | .error fault => (a.1, .error fault)

@[simp] theorem andThen_ok (s : σ) (x : α) (next : σ → α → Attempt σ β) :
    andThen (s, .ok x) next = next s x := rfl

@[simp] theorem andThen_error (s : σ) (fault : Fault) (next : σ → α → Attempt σ β) :
    andThen ((s, .error fault) : Attempt σ α) next = (s, .error fault) := rfl

theorem andThen_assoc {γ : Type} (a : Attempt σ α) (f : σ → α → Attempt σ β)
    (g : σ → β → Attempt σ γ) :
    (a.andThen f).andThen g = a.andThen fun s x => (f s x).andThen g := by
  cases a with
  | mk s r => cases r <;> rfl

/-- What ends without a fault did so in both of its parts. -/
theorem exists_of_andThen_eq_ok {a : Attempt σ α} {next : σ → α → Attempt σ β} {t : σ} {y : β}
    (h : a.andThen next = (t, .ok y)) : ∃ s x, a = (s, .ok x) ∧ next s x = (t, .ok y) := by
  cases a with
  | mk s r =>
    cases r with
    | ok x => exact ⟨s, x, rfl, h⟩
    | error fault => cases h

theorem eq_of_snd_eq_ok {a : Attempt σ α} {x : α} (h : a.2 = .ok x) : a = (a.1, .ok x) :=
  Prod.ext rfl h

def mapResult (a : Attempt σ α) (f : α → β) : Attempt σ β := (a.1, a.2.map f)

def mapState (a : Attempt σ α) (f : σ → τ) : Attempt τ α := (f a.1, a.2)

/-- Acts on each entry of a list in order, up to the first fault. -/
def forEach (act : σ → α → Attempt σ Unit) : List α → σ → Attempt σ Unit
  | [], s => done s
  | x :: rest, s => (act s x).andThen fun after _ => forEach act rest after

def times (act : σ → Attempt σ Unit) : Nat → σ → Attempt σ Unit
  | 0, s => done s
  | n + 1, s => (act s).andThen fun after _ => times act n after

/-- Acting on two lists in a row is acting on the one and, unless there was a
fault, on the other. -/
theorem forEach_append (act : σ → α → Attempt σ Unit) (xs ys : List α) (s : σ) :
    forEach act (xs ++ ys) s = (forEach act xs s).andThen fun after _ => forEach act ys after := by
  induction xs generalizing s with
  | nil => rfl
  | cons x rest ih => simp only [List.cons_append, forEach, ih, andThen_assoc]

theorem times_add (act : σ → Attempt σ Unit) (m n : Nat) (s : σ) :
    times act (m + n) s = (times act m s).andThen fun after _ => times act n after := by
  induction m generalizing s with
  | zero => simp [times, done]
  | succ m ih => simp only [Nat.succ_add, times, ih, andThen_assoc]

end Attempt

end ChipEight
