import ChipEight.Proofs.Machine.Timers
import Mathlib.Algebra.Group.Nat.Defs

/-!
Waiting for a key. A machine that waits while no key is held down executes the same
instruction again and again, and each time it ends up as it began: the program
counter goes on and back, no timer ticks. So the wait cannot be told from no wait at
all, however many steps it took. The step after a key went down reads the lowest one
and moves on.
-/

namespace ChipEight

def Word.awaitKey (x : Register) : Word := UInt16.ofNat (0xF00A + 256 * x.val)

theorem Instruction.ofWord_awaitKey (x : Register) :
    ofWord (Word.awaitKey x) = .awaitKey x := by
  revert x
  decide

theorem Instruction.exists_eq_awaitKey {i : Instruction} (h : i.kind = .awaitKey) :
    ∃ x, i = .awaitKey x := by
  cases i with
  | awaitKey x => exact ⟨x, rfl⟩
  | _ => exact Kind.noConfusion h

namespace Keypad

variable (p : Keypad)

theorem lowest?_eq_some_iff (k : Fin 16) :
    p.lowest? = some k ↔ p.isPressed k = true ∧ ∀ j, j < k → p.isPressed j = false := by
  rw [lowest?, List.find?_eq_some_iff_getElem]
  constructor
  · rintro ⟨hpressed, i, hi, hk, hlower⟩
    rw [List.getElem_finRange] at hk
    refine ⟨hpressed, ?_⟩
    intro j hj
    have hji : j.val < i := by
      rw [← hk] at hj
      exact hj
    simpa using hlower j.val hji
  · rintro ⟨hpressed, hlower⟩
    refine ⟨hpressed, k.val, by simp, by simp, ?_⟩
    intro j hj
    simpa using hlower ⟨j, by omega⟩ hj

theorem exists_lowest? (h : ∃ k, p.isPressed k = true) : ∃ k, p.lowest? = some k := by
  rw [← anyPressed_eq_true_iff] at h
  have hsome : p.lowest? ≠ none := by
    rw [ne_eq, lowest?_eq_none_iff, h]
    exact Bool.noConfusion
  exact Option.ne_none_iff_exists'.1 hsome

theorem exists_ofFlags_eq_ok {flags : List Bool} (h : flags.length = 16) :
    ∃ p, ofFlags flags = .ok p := by
  rw [ofFlags, dif_pos h]
  exact ⟨_, rfl⟩

theorem getElem?_of_ofFlags {flags : List Bool} {p : Keypad} (h : ofFlags flags = .ok p)
    (k : Fin 16) : flags[k.val]? = some (p.isPressed k) := by
  unfold ofFlags at h
  split at h
  case isTrue hlength =>
    cases h
    simp [isPressed, hlength]
  case isFalse => cases h

end Keypad

namespace Machine

variable (m : Machine)

theorem awaitKey_of_released (x : Register) (h : ∀ k, m.keypad.isPressed k = false) :
    m.awaitKey x = { m with pc := m.pc - 2 } := by
  unfold awaitKey
  split
  case h_1 k hk =>
    obtain ⟨hpressed, -⟩ := (m.keypad.lowest?_eq_some_iff k).1 hk
    rw [h k] at hpressed
    cases hpressed
  case h_2 => rfl

theorem awaitKey_of_pressed (x : Register) {key : Fin 16} (h : m.keypad.lowest? = some key) :
    m.awaitKey x = m.setReg x (UInt8.ofNat key.val) := by
  unfold awaitKey
  rw [h]

/-- All of an event but its tone is known before the instruction is executed. -/
theorem event_step : m.step.2 =
    { address := m.pc
      instruction := m.memory.word m.pc.toNat
      unknown := m.nextInstruction.kind == .unknown
      waiting := decide m.Blocked
      tone := m.step.2.tone } := by
  rw [← waiting_step]
  rfl

def waitingEvent : Event where
  address := m.pc
  instruction := m.memory.word m.pc.toNat
  unknown := false
  waiting := true
  tone := false

theorem step_of_blocked (h : m.Blocked) : m.step = (m, m.waitingEvent) := by
  obtain ⟨x, hx⟩ := Instruction.exists_eq_awaitKey h.1
  have hback : m.fetch.1.execute m.nextInstruction = m := by
    rw [hx, execute, m.fetch.1.awaitKey_of_released x h.2]
    -- the counter comes back also from beyond the last address
    have hpc : m.fetch.1.pc - 2 = m.pc := UInt16.add_sub_cancel m.pc 2
    rw [hpc]
    rfl
  have hidle : m.stepAct.ticked = false := by
    rw [stepAct, decide_eq_true h, Bool.not_true, Bool.and_false]
  have hstep := m.step_eq_tick
  rw [hidle, if_neg Bool.false_ne_true, hback, Prod.mk.injEq] at hstep
  obtain ⟨hafter, htone⟩ := hstep
  have hevent : m.step.2 = m.waitingEvent := by
    rw [event_step, htone, decide_eq_true h, hx]
    rfl
  exact Prod.ext hafter hevent

theorem run_of_blocked (h : m.Blocked) (n : Nat) :
    m.run n = (m, List.replicate n m.waitingEvent) := by
  induction n with
  | zero => rfl
  | succ n ih => simp only [run, m.step_of_blocked h, ih, List.replicate_succ]

def readKey (x : Register) (key : Fin 16) : Machine × Bool :=
  let read := { m.setReg x (UInt8.ofNat key.val) with pc := m.pc + 2 }
  if m.coupled then read.tick else (read, false)

theorem step_of_pressed {x : Register} {key : Fin 16} (hx : m.nextInstruction = .awaitKey x)
    (hkey : m.keypad.lowest? = some key) :
    m.step = ((m.readKey x key).1,
      { address := m.pc
        instruction := m.memory.word m.pc.toNat
        unknown := false
        waiting := false
        tone := (m.readKey x key).2 }) := by
  have hfree : ¬ m.Blocked := by
    intro hblocked
    obtain ⟨hpressed, -⟩ := (m.keypad.lowest?_eq_some_iff key).1 hkey
    rw [hblocked.2 key] at hpressed
    cases hpressed
  have hread : m.fetch.1.execute m.nextInstruction = m.fetch.1.setReg x (UInt8.ofNat key.val) := by
    rw [hx, execute]
    exact m.fetch.1.awaitKey_of_pressed x hkey
  have hticked : m.stepAct.ticked = m.coupled := by
    rw [stepAct, decide_eq_false hfree, Bool.not_false, Bool.and_true]
  have hstep := m.step_eq_tick
  rw [hticked, hread] at hstep
  change (m.step.1, m.step.2.tone) = m.readKey x key at hstep
  rw [← hstep]
  refine Prod.ext rfl ?_
  rw [event_step, decide_eq_false hfree, hx]
  rfl

theorem runBatch_of_lt {n : Nat} (h : n < 2 ^ 31) : m.runBatch n = .ok (m.run n) := by
  rw [runBatch, (Batch.check_eq_ok_iff n).2 h]
  rfl

theorem exists_runBatch_eq_error {n : Nat} (h : 2 ^ 31 ≤ n) :
    ∃ fault, m.runBatch n = .error fault := by
  unfold runBatch
  cases hcheck : Batch.check n with
  | ok _ =>
    have hlt : n < 2 ^ 31 := (Batch.check_eq_ok_iff n).1 hcheck
    omega
  | error fault => exact ⟨fault, rfl⟩

theorem nextInstruction_of_word {x : Register} (h : m.memory.word m.pc.toNat = Word.awaitKey x) :
    m.nextInstruction = .awaitKey x := by
  change Instruction.ofWord (m.memory.word m.pc.toNat) = .awaitKey x
  rw [h, Instruction.ofWord_awaitKey]

/-- A wait without a key leaves no trace, in one batch as long as it can be counted:
what follows when keys are pressed is the same as if there had been no wait. With
keys held down the next step reads the lowest of them. -/
theorem wait_leaves_no_trace (x : Register)
    (hword : m.memory.word m.pc.toNat = Word.awaitKey x) :
    ((∀ k, m.keypad.isPressed k = false) →
      (∀ n, m.run n = (m, List.replicate n m.waitingEvent)) ∧
      (∀ n, n < 2 ^ 31 → m.runBatch n = .ok (m, List.replicate n m.waitingEvent)) ∧
      (∀ n, 2 ^ 31 ≤ n → ∃ fault, m.runBatch n = .error fault) ∧
      ∀ n flags j, n < 2 ^ 31 →
        ((m.runBatch n).bind fun waited => (waited.1.setKeys flags).bind fun k => k.runBatch j) =
          (m.setKeys flags).bind fun k => k.runBatch j) ∧
    ∀ flags : List Bool, flags.length = 16 → true ∈ flags → ∃ (key : Fin 16) (k : Machine),
      flags[key.val]? = some true ∧ (∀ j, j < key.val → flags[j]? = some false) ∧
        m.setKeys flags = .ok k ∧
        k.step = ((k.readKey x key).1,
          { address := m.pc
            instruction := Word.awaitKey x
            unknown := false
            waiting := false
            tone := (k.readKey x key).2 }) := by
  have hx := m.nextInstruction_of_word hword
  constructor
  · intro hreleased
    have hrun := m.run_of_blocked ⟨by rw [hx]; rfl, hreleased⟩
    have hbatch (n : Nat) (hn : n < 2 ^ 31) :
        m.runBatch n = .ok (m, List.replicate n m.waitingEvent) := by
      rw [m.runBatch_of_lt hn, hrun]
    refine ⟨hrun, hbatch, fun n hn => m.exists_runBatch_eq_error hn, ?_⟩
    intro n flags j hn
    rw [hbatch n hn]
    rfl
  · intro flags hlength hpressed
    obtain ⟨p, hp⟩ := Keypad.exists_ofFlags_eq_ok hlength
    have hflag := Keypad.getElem?_of_ofFlags hp
    have hdown : ∃ k, p.isPressed k = true := by
      obtain ⟨i, hi, htrue⟩ := List.getElem_of_mem hpressed
      have hk := hflag ⟨i, hlength ▸ hi⟩
      rw [List.getElem?_eq_getElem hi, htrue] at hk
      exact ⟨⟨i, hlength ▸ hi⟩, (Option.some.inj hk).symm⟩
    obtain ⟨key, hkey⟩ := p.exists_lowest? hdown
    obtain ⟨hheld, hlower⟩ := (p.lowest?_eq_some_iff key).1 hkey
    refine ⟨key, { m with keypad := p }, ?_, ?_, ?_, ?_⟩
    · rw [hflag, hheld]
    · intro j hj
      rw [hflag ⟨j, hj.trans key.isLt⟩, hlower ⟨j, hj.trans key.isLt⟩ hj]
    · rw [setKeys, hp]
      rfl
    · have hstep := step_of_pressed { m with keypad := p } hx hkey
      rw [hstep, ← hword]

/-- A machine that waits at the very end of the addresses, its word split between the
last cell of the memory and the first. -/
def waitingAtEnd : Machine :=
  let fresh := Machine.fresh ⟨0, 0⟩ true
  { fresh with
    memory := fresh.memory.writeBytes 0xFFF [0xF3, 0x0A]
    pc := 0xFFFF
    sound := 1 }

def keysFourAndNine : List Bool := List.ofFn fun key : Fin 16 => decide (key = 4 ∨ key = 9)

theorem word_waitingAtEnd :
    waitingAtEnd.memory.word waitingAtEnd.pc.toNat = Word.awaitKey 3 := by
  decide +kernel

/-- Of the keys 4 and 9 it reads the lower one and gives the tone that was due. -/
theorem wait_leaves_no_trace_atEnd :
    waitingAtEnd.memory.word waitingAtEnd.pc.toNat = Word.awaitKey 3 ∧
      (∀ k, waitingAtEnd.keypad.isPressed k = false) ∧
      waitingAtEnd.runBatch 5 = .ok (waitingAtEnd, List.replicate 5 waitingAtEnd.waitingEvent) ∧
      ∃ k, waitingAtEnd.setKeys keysFourAndNine = .ok k ∧ k.step.1.pc = 1 ∧
        k.step.1.reg 3 = 4 ∧ k.step.2.tone = true := by
  have hreleased : ∀ k, waitingAtEnd.keypad.isPressed k = false := by decide +kernel
  obtain ⟨hwait, hread⟩ := waitingAtEnd.wait_leaves_no_trace 3 word_waitingAtEnd
  obtain ⟨-, hbatch, -, -⟩ := hwait hreleased
  obtain ⟨key, k, hkey, hlower, hk, hstep⟩ :=
    hread keysFourAndNine (by decide) (by decide)
  have hfirst : ∀ key : Fin 16, keysFourAndNine[key.val]? = some true →
      (∀ j, j < key.val → keysFourAndNine[j]? = some false) → key = 4 := by decide
  cases hk
  refine ⟨word_waitingAtEnd, hreleased, hbatch 5 (by decide), _, rfl, ?_⟩
  rw [hstep, hfirst key hkey hlower]
  decide +kernel

/-- A wait that is asked for as one batch too long to be counted is no wait: it is
refused. -/
theorem uncountable_wait_refused :
    ¬ ∀ (m : Machine) (x : Register) (n : Nat), m.memory.word m.pc.toNat = Word.awaitKey x →
      (∀ k, m.keypad.isPressed k = false) →
      m.runBatch n = .ok (m, List.replicate n m.waitingEvent) := by
  intro hall
  have hwait := hall waitingAtEnd 3 (10 ^ 20) word_waitingAtEnd (by decide +kernel)
  obtain ⟨fault, hrefused⟩ := waitingAtEnd.exists_runBatch_eq_error (n := 10 ^ 20) (by decide)
  rw [hrefused] at hwait
  cases hwait

end Machine

end ChipEight
