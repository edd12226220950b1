import ChipEight.Proofs.Machine.Frame
import Mathlib.Logic.Function.Iterate

/-!
The random bytes of a run. One kind of instruction draws from the stream and no
other touches the key, so after any steps the key has moved on once for each draw,
and each draw got the byte of the key that it found. All that happened between the
draws is of no account.
-/

namespace ChipEight

/-- A random draw: the mask of its instruction and what that left in its register. -/
structure Draw where
  mask : UInt8
  result : UInt8
  deriving DecidableEq, Repr

namespace Machine

variable (m : Machine)

def draw? : Option Draw :=
  match m.nextInstruction with
  | .random x mask => some ⟨mask, m.step.1.reg x⟩
  | _ => none

def draws : Nat → Machine → List Draw
  | 0, _ => []
  | n + 1, m => m.draw?.toList ++ draws n m.step.1

theorem random_step_of_ne (h : m.nextInstruction.kind ≠ .random) :
    m.draw? = none ∧ m.step.1.random = m.random := by
  refine ⟨?_, m.framed_step.random h⟩
  unfold draw?
  split
  case h_1 x mask hi => exact absurd (congrArg Instruction.kind hi) h
  case h_2 => rfl

/-- A draw leaves the byte of the key under its mask, and the key that follows. -/
theorem random_step (h : m.nextInstruction.kind = .random) :
    ∃ mask, m.draw? = some ⟨mask, m.random.byte &&& mask⟩ ∧ m.step.1.random = m.random.next := by
  cases hi : m.nextInstruction with
  | random x mask =>
    obtain ⟨delay, sound, hstep⟩ := m.exists_step_eq
    rw [hi] at hstep
    have hreg : m.step.1.reg x = m.random.byte &&& mask := by
      have hset := m.fetch.1.reg_setReg x x (m.random.byte &&& mask)
      rw [if_pos rfl] at hset
      rw [hstep]
      exact hset
    refine ⟨mask, ?_, ?_⟩
    · simp only [draw?, hi, hreg]
    · rw [hstep]
      rfl
  | _ => rw [hi] at h; exact Kind.noConfusion h

end Machine

/-- Draws took the bytes of a key and its followers in turn, and a machine holds the
key that comes next. -/
structure Drawn (key : RandomKey) (draws : List Draw) (m : Machine) : Prop where
  random : m.random = RandomKey.next^[draws.length] key
  result : ∀ j d, draws[j]? = some d → d.result = (RandomKey.next^[j] key).byte &&& d.mask

namespace Drawn

variable {key : RandomKey} {draws : List Draw} {m k : Machine}

theorem nil (m : Machine) : Drawn m.random [] m where
  random := rfl
  result j d h := by cases h

theorem of_random_eq (h : Drawn key draws m) (hk : k.random = m.random) : Drawn key draws k where
  random := hk.trans h.random
  result := h.result

theorem step (h : Drawn key draws m) : Drawn key (draws ++ m.draw?.toList) m.step.1 := by
  by_cases hi : m.nextInstruction.kind = .random
  · obtain ⟨mask, hdraw, hnext⟩ := m.random_step hi
    rw [hdraw, Option.toList_some]
    constructor
    · rw [hnext, h.random, List.length_append, List.length_singleton,
        Function.iterate_succ_apply']
    · intro j d hd
      rcases Nat.lt_or_ge j draws.length with hold | hnew
      · rw [List.getElem?_append_left hold] at hd
        exact h.result j d hd
      · rw [List.getElem?_append_right hnew, List.getElem?_singleton] at hd
        split at hd
        case isTrue hlast =>
          have hj : j = draws.length := by omega
          cases hd
          rw [hj, ← h.random]
        case isFalse => cases hd
  · obtain ⟨hdraw, hsame⟩ := m.random_step_of_ne hi
    rw [hdraw, Option.toList_none, List.append_nil]
    exact h.of_random_eq hsame

theorem run (h : Drawn key draws m) (n : Nat) : Drawn key (draws ++ m.draws n) (m.run n).1 := by
  induction n generalizing m draws with
  | zero =>
    rw [Machine.draws, List.append_nil]
    exact h
  | succ n ih =>
    rw [Machine.draws, ← List.append_assoc]
    exact ih h.step

end Drawn

theorem Machine.length_draws (m : Machine) (n : Nat) :
    (m.draws n).length = (m.run n).2.countP fun e => e.kind == .random := by
  induction n generalizing m with
  | zero => rfl
  | succ n ih =>
    rw [draws, run, List.length_append, ih, List.countP_cons, kind_step, Nat.add_comm]
    by_cases hi : m.nextInstruction.kind = .random
    · obtain ⟨mask, hdraw, -⟩ := m.random_step hi
      rw [hdraw, hi]
      rfl
    · rw [(m.random_step_of_ne hi).1, beq_false_of_ne hi]
      rfl

end ChipEight
