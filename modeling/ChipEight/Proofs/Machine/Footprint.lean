import ChipEight.Machine.Step
import Mathlib.Data.List.Basic

/-!
What the steps of a machine can touch. A step is the fetch, the instruction and
at most one tick, so beyond the timers it leaves what its instruction leaves.
The stack is touched by calls and returns alone, the screen and its flag by the
two kinds that draw. Whatever a run keeps is kept by each of its steps.
-/

namespace ChipEight

def Kind.Draws (k : Kind) : Prop := k = .clear ∨ k = .draw

instance (k : Kind) : Decidable k.Draws := inferInstanceAs (Decidable (_ ∨ _))

def Event.kind (e : Event) : Kind := Kind.ofWord e.instruction

namespace Machine

variable (m : Machine)

def nextInstruction : Instruction := Instruction.ofWord m.fetch.2

theorem kind_step : m.step.2.kind = m.nextInstruction.kind :=
  (Instruction.kind_ofWord m.fetch.2).symm

/-- The timers apart, a step leaves what its instruction leaves. -/
theorem exists_step_eq : ∃ delay sound,
    m.step.1 = { m.fetch.1.execute m.nextInstruction with delay := delay, sound := sound } := by
  simp only [step, nextInstruction, tick]
  split
  · exact ⟨_, _, rfl⟩
  · exact ⟨_, _, rfl⟩

theorem skipIf_eq (condition : Bool) :
    m.skipIf condition = { m with pc := if condition then m.pc + 2 else m.pc } := by
  cases condition <;> rfl

theorem exists_awaitKey_eq (x : Register) : ∃ registers pc,
    m.awaitKey x = { m with registers := registers, pc := pc } := by
  unfold awaitKey
  split
  · exact ⟨_, _, rfl⟩
  · exact ⟨_, _, rfl⟩

/-- Only calls and returns touch the stack. -/
theorem stack_execute (i : Instruction) (hcall : i.kind ≠ .call) (hret : i.kind ≠ .ret) :
    (m.execute i).stack = m.stack := by
  cases i with
  | call target => exact absurd rfl hcall
  | ret => exact absurd rfl hret
  | awaitKey x =>
    obtain ⟨registers, pc, h⟩ := m.exists_awaitKey_eq x
    simp only [execute, h]
  | skipEqualByte | skipUnequalByte | skipEqual | skipUnequal | skipPressed | skipReleased =>
    simp only [execute, skipIf_eq]
  | loadRegisters last => simp only [execute, loadRegisters]
  | _ => rfl

theorem screen_execute (i : Instruction) (h : ¬ i.kind.Draws) :
    (m.execute i).screen = m.screen ∧ (m.execute i).dirty = m.dirty := by
  cases i with
  | clear => exact absurd (Or.inl rfl) h
  | draw x y height => exact absurd (Or.inr rfl) h
  | awaitKey x =>
    obtain ⟨registers, pc, h⟩ := m.exists_awaitKey_eq x
    simp only [execute, h, and_self]
  | skipEqualByte | skipUnequalByte | skipEqual | skipUnequal | skipPressed | skipReleased =>
    simp only [execute, skipIf_eq, and_self]
  | loadRegisters last => simp only [execute, loadRegisters, and_self]
  | _ => exact ⟨rfl, rfl⟩

/-- No instruction touches the keys or what the timers count. -/
theorem keypad_execute (i : Instruction) :
    (m.execute i).keypad = m.keypad ∧ (m.execute i).coupled = m.coupled := by
  cases i with
  | awaitKey x =>
    obtain ⟨registers, pc, h⟩ := m.exists_awaitKey_eq x
    simp only [execute, h, and_self]
  | skipEqualByte | skipUnequalByte | skipEqual | skipUnequal | skipPressed | skipReleased =>
    simp only [execute, skipIf_eq, and_self]
  | loadRegisters last => simp only [execute, loadRegisters, and_self]
  | _ => exact ⟨rfl, rfl⟩

theorem dirty_execute (i : Instruction) (h : i.kind.Draws) : (m.execute i).dirty = true := by
  rcases h with h | h
  · cases i with
    | clear => rfl
    | _ => exact Kind.noConfusion h
  · cases i with
    | draw x y height => rfl
    | _ => exact Kind.noConfusion h

theorem stack_step (hcall : m.step.2.kind ≠ .call) (hret : m.step.2.kind ≠ .ret) :
    m.step.1.stack = m.stack := by
  rw [kind_step] at hcall hret
  obtain ⟨delay, sound, h⟩ := m.exists_step_eq
  rw [h]
  exact stack_execute m.fetch.1 m.nextInstruction hcall hret

theorem stack_step_of_call (h : m.step.2.kind = .call) :
    m.step.1.stack = m.stack.push (m.pc + 2) := by
  rw [kind_step] at h
  obtain ⟨delay, sound, hstep⟩ := m.exists_step_eq
  rw [hstep]
  cases hi : m.nextInstruction with
  | call target => rfl
  | _ => rw [hi] at h; exact Kind.noConfusion h

theorem step_of_ret (h : m.step.2.kind = .ret) :
    m.step.1.stack = m.stack.pop.1 ∧ m.step.1.pc = m.stack.pop.2 := by
  rw [kind_step] at h
  obtain ⟨delay, sound, hstep⟩ := m.exists_step_eq
  rw [hstep]
  cases hi : m.nextInstruction with
  | ret => exact ⟨rfl, rfl⟩
  | _ => rw [hi] at h; exact Kind.noConfusion h

theorem screen_step (h : ¬ m.step.2.kind.Draws) :
    m.step.1.screen = m.screen ∧ m.step.1.dirty = m.dirty := by
  rw [kind_step] at h
  obtain ⟨delay, sound, hstep⟩ := m.exists_step_eq
  rw [hstep]
  exact screen_execute m.fetch.1 m.nextInstruction h

theorem dirty_step (h : m.step.2.kind.Draws) : m.step.1.dirty = true := by
  rw [kind_step] at h
  obtain ⟨delay, sound, hstep⟩ := m.exists_step_eq
  rw [hstep]
  exact dirty_execute m.fetch.1 m.nextInstruction h

/-- The last step of a run goes on from where the steps before it led. -/
theorem run_succ (n : Nat) :
    m.run (n + 1) = ((m.run n).1.step.1, (m.run n).2 ++ [(m.run n).1.step.2]) :=
  m.run_add n 1

/-- A run that draws nothing leaves the screen and its flag alone. -/
theorem screen_run (n : Nat) (h : ∀ e ∈ (m.run n).2, ¬ e.kind.Draws) :
    (m.run n).1.screen = m.screen ∧ (m.run n).1.dirty = m.dirty := by
  induction n generalizing m with
  | zero => exact ⟨rfl, rfl⟩
  | succ n ih =>
    simp only [run, List.forall_mem_cons] at h ⊢
    obtain ⟨hfirst, hrest⟩ := h
    obtain ⟨hscreen, hdirty⟩ := ih m.step.1 hrest
    obtain ⟨hscreen', hdirty'⟩ := m.screen_step hfirst
    exact ⟨hscreen.trans hscreen', hdirty.trans hdirty'⟩

/-- After a run the screen counts as changed exactly if it did before or if one of
the steps drew. -/
theorem dirty_run_iff (n : Nat) :
    (m.run n).1.dirty = true ↔ m.dirty = true ∨ ∃ e ∈ (m.run n).2, e.kind.Draws := by
  induction n generalizing m with
  | zero => simp [run]
  | succ n ih =>
    have hstep : m.step.1.dirty = true ↔ m.dirty = true ∨ m.step.2.kind.Draws := by
      by_cases hdraws : m.step.2.kind.Draws
      · simp only [m.dirty_step hdraws, hdraws, or_true]
      · rw [(m.screen_step hdraws).2]
        simp only [hdraws, or_false]
    rw [run, ih, hstep, List.exists_mem_cons_iff, or_assoc]

end Machine

end ChipEight
