import ChipEight.Proofs.Host.Serving
import Mathlib.Algebra.Group.Nat.Defs

/-!
A batch of steps against the same steps made one by one. The batch is made as a
whole and its events are reported afterwards; single steps are reported as they
are made and end at the first fault. Without a trace the two cannot be told
apart: machine, counters, log, clock, listener, events and fault are the same.
-/

namespace ChipEight

theorem Attempt.mapResult_mapResult {σ α β γ : Type} (a : Attempt σ α) (f : α → β) (g : β → γ) :
    (a.mapResult f).mapResult g = a.mapResult fun x => g (f x) := by
  cases a with
  | mk s r => cases r <;> rfl

/-- An event that is no fault leaves some journal and the way free. -/
theorem Journal.exists_observe_eq (setup : HostSetup) (j : Journal) (e : Event)
    (hgo : (e.unknown && setup.strict) = false) :
    ∃ told, j.observe setup e = .done told := by
  simp only [observe, hgo, Bool.false_eq_true, if_false]
  exact ⟨_, rfl⟩

namespace Host

/-- Makes steps one by one, each reported before the next is made, up to the
first fault, and lists their events. -/
def stepwise : Nat → Host → Attempt Host (List Event)
  | 0, h => (h, .ok [])
  | n + 1, h => h.step.andThen fun after e => (stepwise n after).mapResult fun es => e :: es

variable (h : Host)

/-- The host with its machine moved on by a step that is counted but of which
the journal does not know yet. -/
def advance : Host := { h with machine := h.machine.step.1, steps := h.steps + 1 }

theorem batch_zero : h.batch 0 = (h.machine, []) := by
  simp [batch, Machine.run]

/-- Under a strict setup an unknown opcode is the last step of its batch. -/
theorem batch_succ_of_stop (n : Nat) (hstop : (h.machine.step.2.unknown && h.setup.strict) = true) :
    h.batch (n + 1) = (h.machine.step.1, [h.machine.step.2]) := by
  rw [Bool.and_eq_true] at hstop
  simp only [batch, hstop.2, if_true, Machine.run, List.findIdx?_cons, hstop.1]

/-- Any other first step is followed by the batch of the host that made it. -/
theorem batch_succ (n : Nat) (hgo : (h.machine.step.2.unknown && h.setup.strict) = false) :
    h.batch (n + 1) = ((h.advance.batch n).1, h.machine.step.2 :: (h.advance.batch n).2) := by
  cases hs : h.setup.strict with
  | false => simp [batch, advance, hs, Machine.run]
  | true =>
    have hknown : h.machine.step.2.unknown = false := by simpa [hs] using hgo
    simp only [batch, advance, hs, if_true, Machine.run, List.findIdx?_cons, hknown]
    cases hi : (Machine.run n h.machine.step.1).2.findIdx? (·.unknown) with
    | none => simp
    | some i => simp [Machine.run]

/-- A step that is not traced is reported to the journal as it was before. -/
theorem step_eq (quiet : h.setup.trace = false) :
    h.step = ((h.journal.observe h.setup h.machine.step.2).mapState fun journal =>
      { h.advance with journal := journal }).mapResult fun _ => h.machine.step.2 := by
  simp [step, traceNext, quiet, advance]

theorem run_zero : h.run 0 = (h, .ok []) := by
  simp only [run, batch_zero]
  rfl

/-- A batch is its first step and, unless that met a fault, the batch of the
steps after it. -/
theorem run_succ (quiet : h.setup.trace = false) (n : Nat) :
    h.run (n + 1) = h.step.andThen fun after e => (after.run n).mapResult fun es => e :: es := by
  rw [h.step_eq quiet]
  cases hstop : h.machine.step.2.unknown && h.setup.strict with
  | true =>
    -- the fault ends the batch and its step leaves nothing in the journal
    rw [run, h.batch_succ_of_stop n hstop]
    simp only [Journal.observeAll, Attempt.forEach, Journal.observe, hstop, if_true]
    rfl
  | false =>
    obtain ⟨told, htold⟩ := Journal.exists_observe_eq h.setup h.journal h.machine.step.2 hstop
    have hbatch := h.batch_succ n hstop
    have hlength : h.steps + ((h.advance.batch n).2.length + 1)
        = h.advance.steps + (h.advance.batch n).2.length := by
      simp only [advance]
      omega
    let after : Host := { h.advance with journal := told }
    have hafter : after.batch n = h.advance.batch n := rfl
    rw [run, hbatch, htold]
    simp only [Journal.observeAll, Attempt.forEach, htold, List.length_cons, hlength]
    change _ = (after.run n).mapResult fun es => h.machine.step.2 :: es
    rw [run, hafter, Attempt.mapResult_mapResult]
    rfl

theorem setup_step : h.step.1.setup = h.setup := rfl

theorem run_eq_stepwise (quiet : h.setup.trace = false) (n : Nat) : h.run n = h.stepwise n := by
  induction n generalizing h with
  | zero => exact h.run_zero
  | succ n ih =>
    rw [h.run_succ quiet, stepwise]
    cases hstep : h.step with
    | mk after result =>
      cases result with
      | error fault => rfl
      | ok e =>
        have hquiet : after.setup.trace = false := by
          have hsetup := h.setup_step
          rw [hstep] at hsetup
          rw [hsetup]
          exact quiet
        rw [Attempt.andThen_ok, Attempt.andThen_ok, ih after hquiet]

/-- A host that makes single steps cannot be told from one that asks for a
batch, as long as the batch is short enough to be counted. A longer one is
refused, and then nothing has changed. -/
theorem serve_run_eq_stepwise (files : Files) (quiet : h.setup.trace = false) (n : Nat) :
    h.run n = h.stepwise n ∧
      (n < 2 ^ 31 → h.serve files (.run n) = (h.stepwise n).mapResult .ran) ∧
      (2 ^ 31 ≤ n → ∃ fault, h.serve files (.run n) = (h, .error fault)) := by
  refine ⟨h.run_eq_stepwise quiet n, ?_, ?_⟩
  · intro hn
    simp only [serve, (Batch.check_eq_ok_iff n).2 hn, h.run_eq_stepwise quiet n]
  · intro hn
    cases hcheck : Batch.check n with
    | ok _ =>
      have hshort : n < 2 ^ 31 := (Batch.check_eq_ok_iff n).1 hcheck
      omega
    | error fault => exact ⟨fault, by simp only [serve, hcheck]⟩

def unprogrammed : Host := unasked { strict := true } ⟨0, 0⟩ {}

theorem fetch_unprogrammed : unprogrammed.machine.fetch.2 = 0 := by
  have hpc : unprogrammed.machine.pc.toNat = 0x200 := by decide
  simp only [Machine.fetch, hpc]
  exact Machine.word_fresh ⟨0, 0⟩ true 0x200 (by omega) (by omega)

theorem step_unprogrammed : unprogrammed.step.2 = .error (.unknownOpcode 0 0x200) := by
  have hunknown : unprogrammed.machine.step.2.unknown = true := by
    simp only [Machine.step, fetch_unprogrammed]
    decide
  have hinstruction : unprogrammed.machine.step.2.instruction = 0 := fetch_unprogrammed
  rw [unprogrammed.step_eq rfl]
  have hstop : (unprogrammed.machine.step.2.unknown && unprogrammed.setup.strict) = true := by
    rw [hunknown]
    rfl
  simp only [Journal.observe, hstop, if_true, hinstruction]
  rfl

/-- Unless it makes no step at all, it stops after the first. -/
theorem stepwise_unprogrammed (n : Nat) :
    (unprogrammed.stepwise (n + 1)).2 = .error (.unknownOpcode 0 0x200) := by
  have hstep := step_unprogrammed
  rw [stepwise]
  cases h : unprogrammed.step with
  | mk after result =>
    rw [h] at hstep
    cases hstep
    rfl

theorem serve_run_unprogrammed :
    unprogrammed.setup.trace = false ∧ 3 < 2 ^ 31 ∧
      unprogrammed.serve .empty (.run 3) = (unprogrammed.stepwise 3).mapResult .ran ∧
      (unprogrammed.run 3).2 = .error (.unknownOpcode 0 0x200) := by
  have hlaw := unprogrammed.serve_run_eq_stepwise .empty rfl 3
  refine ⟨rfl, by decide, hlaw.2.1 (by decide), ?_⟩
  rw [hlaw.1]
  exact stepwise_unprogrammed 2

/-- A batch too long to be counted does not even meet the unknown opcode that
its first step meets. -/
theorem uncountable_batch_ne_stepwise :
    ¬ ∀ (files : Files) (h : Host) (n : Nat), h.setup.trace = false →
      h.serve files (.run n) = (h.stepwise n).mapResult .ran := by
  intro hall
  have hrun := congrArg Prod.snd (hall .empty unprogrammed (10 ^ 20) rfl)
  have hsteps : (unprogrammed.stepwise (10 ^ 20)).2 = .error (.unknownOpcode 0 0x200) := by
    rw [show 10 ^ 20 = 99999999999999999999 + 1 by decide]
    exact stepwise_unprogrammed _
  have hcheck : Batch.check (10 ^ 20) = .error (.batchUncountable (10 ^ 20)) := by
    rw [Batch.check, if_pos (by decide)]
  simp only [serve, hcheck, Attempt.mapResult, hsteps] at hrun
  cases hrun

end Host

end ChipEight
