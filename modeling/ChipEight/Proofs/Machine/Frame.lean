import ChipEight.Proofs.Machine.KeyWait

/-!
What a step leaves alone. Every part of a machine is written by few instructions:
the random key by one, the index by five, the memory by the two that store a block
from the index on. All else is as it was before the step, so over a run a cell of
the memory changes only if some executed instruction stored a block that holds it.
-/

namespace ChipEight

def Kind.jumping : List Kind := [.jump, .call, .ret, .jumpOffset]

def Kind.indexing : List Kind :=
  [.setIndex, .addIndex, .pointGlyph, .storeRegisters, .loadRegisters]

def Instruction.stored : Instruction → Nat
  | .storeDecimal _ => 3
  | .storeRegisters last => last.val + 1
  | _ => 0

theorem Memory.read_writeBytes_of_ne (m : Memory) (a q : Nat) (bytes : List UInt8)
    (hq : ∀ j, j < bytes.length → (a + j) % 4096 ≠ q % 4096) :
    (m.writeBytes a bytes).read q = m.read q := by
  induction bytes generalizing m a with
  | nil => rfl
  | cons b rest ih =>
    have hfirst : a % 4096 ≠ q % 4096 := hq 0 (Nat.succ_pos _)
    have hrest : ∀ j, j < rest.length → (a + 1 + j) % 4096 ≠ q % 4096 := by
      intro j hj
      rw [Nat.add_right_comm, Nat.add_assoc]
      exact hq (j + 1) (Nat.succ_lt_succ hj)
    rw [writeBytes, ih _ _ hrest, read_write, if_neg hfirst.symm]

namespace Machine

variable (m : Machine)

/-- Whether the next instruction writes the cell of an address. -/
def Stores (a : Nat) : Prop :=
  ∃ j < m.nextInstruction.stored, (m.index.toNat + j) % 4096 = a % 4096

/-- Whether an instruction writes a register. The one that waits for a key writes
only if there is one. -/
def Sets (r : Register) : Instruction → Prop
  | .setByte x _ | .addByte x _ | .random x _ | .readDelay x => r = x
  | .copy x _ | .or x _ | .and x _ | .xor x _ => r = x
  | .add x _ | .subtract x _ | .subtractFrom x _ => r = x ∨ r = flag
  | .shiftRight x | .shiftLeft x => r = x ∨ r = flag
  | .draw _ _ _ | .addIndex _ => r = flag
  | .awaitKey x => r = x ∧ ∃ k, m.keypad.isPressed k = true
  | .loadRegisters last => r ≤ last
  | _ => False

def skips : Instruction → Bool
  | .skipEqualByte x byte => m.reg x == byte
  | .skipUnequalByte x byte => m.reg x != byte
  | .skipEqual x y => m.reg x == m.reg y
  | .skipUnequal x y => m.reg x != m.reg y
  | .skipPressed x => m.keyInReg x
  | .skipReleased x => !m.keyInReg x
  | _ => false

def advance : Nat :=
  if m.skips m.nextInstruction then 4 else if m.Blocked then 0 else 2

theorem reg_setReg (x r : Register) (b : UInt8) :
    (m.setReg x b).reg r = if r = x then b else m.reg r := by
  simp [reg, setReg, Vector.getElem_set, Fin.ext_iff, eq_comm]

theorem reg_setReg_of_ne {x r : Register} (b : UInt8) (h : r ≠ x) :
    (m.setReg x b).reg r = m.reg r := by
  rw [reg_setReg, if_neg h]

theorem reg_setRegFlag_of_ne {x r : Register} (b : UInt8) (on : Bool)
    (h : ¬ (r = x ∨ r = flag)) : (m.setRegFlag x b on).reg r = m.reg r := by
  rw [not_or] at h
  rw [setRegFlag, reg_setReg_of_ne _ _ h.2, reg_setReg_of_ne _ _ h.1]

theorem reg_loadRegisters (last r : Register) (h : ¬ r ≤ last) :
    (m.loadRegisters last).reg r = m.reg r := by
  have hlast : ¬ r.val ≤ last.val := h
  simp only [loadRegisters, reg, Fin.getElem_fin, Vector.getElem_ofFn, hlast, if_false]

theorem reg_awaitKey (x r : Register)
    (h : ¬ (r = x ∧ ∃ k, m.keypad.isPressed k = true)) : (m.awaitKey x).reg r = m.reg r := by
  by_cases hpressed : ∃ k, m.keypad.isPressed k = true
  · obtain ⟨key, hkey⟩ := m.keypad.exists_lowest? hpressed
    rw [m.awaitKey_of_pressed x hkey]
    exact m.reg_setReg_of_ne _ fun hr => h ⟨hr, hpressed⟩
  · simp only [not_exists, Bool.not_eq_true] at hpressed
    rw [m.awaitKey_of_released x hpressed]
    rfl

theorem random_execute (i : Instruction) (h : i.kind ≠ .random) :
    (m.execute i).random = m.random := by
  cases i with
  | random x mask => exact absurd rfl h
  | awaitKey x =>
    obtain ⟨registers, pc, hwait⟩ := m.exists_awaitKey_eq x
    rw [execute, hwait]
  | skipEqualByte | skipUnequalByte | skipEqual | skipUnequal | skipPressed | skipReleased =>
    rw [execute, skipIf_eq]
  | loadRegisters last => rw [execute, loadRegisters]
  | _ => rfl

theorem index_execute (i : Instruction) (h : i.kind ∉ Kind.indexing) :
    (m.execute i).index = m.index := by
  cases i with
  | setIndex | addIndex | pointGlyph | storeRegisters | loadRegisters =>
    simp [Instruction.kind, Kind.indexing] at h
  | awaitKey x =>
    obtain ⟨registers, pc, hwait⟩ := m.exists_awaitKey_eq x
    rw [execute, hwait]
  | skipEqualByte | skipUnequalByte | skipEqual | skipUnequal | skipPressed | skipReleased =>
    rw [execute, skipIf_eq]
  | _ => rfl

theorem read_execute (i : Instruction) (a : Nat)
    (h : ∀ j, j < i.stored → (m.index.toNat + j) % 4096 ≠ a % 4096) :
    (m.execute i).memory.read a = m.memory.read a := by
  cases i with
  | storeDecimal x => exact m.memory.read_writeBytes_of_ne _ _ _ h
  | storeRegisters last =>
    apply m.memory.read_writeBytes_of_ne
    intro j hj
    rw [List.length_take] at hj
    exact h j (Nat.lt_of_lt_of_le hj (Nat.min_le_left _ _))
  | awaitKey x =>
    obtain ⟨registers, pc, hwait⟩ := m.exists_awaitKey_eq x
    rw [execute, hwait]
  | skipEqualByte | skipUnequalByte | skipEqual | skipUnequal | skipPressed | skipReleased =>
    rw [execute, skipIf_eq]
  | loadRegisters last => rw [execute, loadRegisters]
  | _ => rfl

theorem reg_execute (i : Instruction) (r : Register) (h : ¬ m.Sets r i) :
    (m.execute i).reg r = m.reg r := by
  cases i with
  | setByte | addByte | copy | or | and | xor | random | readDelay =>
    exact m.reg_setReg_of_ne _ h
  | add | subtract | subtractFrom | shiftRight | shiftLeft =>
    exact m.reg_setRegFlag_of_ne _ _ h
  | draw | addIndex => exact m.reg_setReg_of_ne _ h
  | awaitKey x => exact m.reg_awaitKey x r h
  | skipEqualByte | skipUnequalByte | skipEqual | skipUnequal | skipPressed | skipReleased =>
    rw [execute, skipIf_eq]
    rfl
  | loadRegisters last => exact m.reg_loadRegisters last r h
  | _ => rfl

theorem pc_awaitKey (x : Register) (h : ∃ k, m.keypad.isPressed k = true) :
    (m.awaitKey x).pc = m.pc := by
  obtain ⟨key, hkey⟩ := m.keypad.exists_lowest? h
  rw [m.awaitKey_of_pressed x hkey]
  rfl

theorem pc_execute (i : Instruction) (hjump : i.kind ∉ Kind.jumping)
    (hfree : i.kind = .awaitKey → ∃ k, m.keypad.isPressed k = true) :
    (m.execute i).pc = if m.skips i then m.pc + 2 else m.pc := by
  cases i with
  | jump | call | ret | jumpOffset => simp [Instruction.kind, Kind.jumping] at hjump
  | awaitKey x => exact m.pc_awaitKey x (hfree rfl)
  | skipEqualByte | skipUnequalByte | skipEqual | skipUnequal | skipPressed | skipReleased =>
    rw [execute, skipIf_eq]
    rfl
  | loadRegisters last =>
    rw [execute, loadRegisters]
    rfl
  | _ => rfl

theorem skips_fetch (i : Instruction) : m.fetch.1.skips i = m.skips i := by
  cases i <;> rfl

theorem skips_of_blocked (h : m.Blocked) : m.skips m.nextInstruction = false := by
  obtain ⟨x, hx⟩ := Instruction.exists_eq_awaitKey h.1
  rw [hx]
  rfl

/-- The program counter moves on by two, by four over a skipped instruction and not
at all while the machine waits in vain. -/
theorem pc_step (h : m.nextInstruction.kind ∉ Kind.jumping) :
    m.step.1.pc.toNat = (m.pc.toNat + m.advance) % 65536 := by
  by_cases hblocked : m.Blocked
  · have hlt := m.pc.toNat_lt
    rw [m.step_of_blocked hblocked, advance, m.skips_of_blocked hblocked,
      if_neg Bool.false_ne_true, if_pos hblocked]
    exact (Nat.mod_eq_of_lt hlt).symm
  · have hfree : m.nextInstruction.kind = .awaitKey → ∃ k, m.keypad.isPressed k = true := by
      intro hwait
      by_contra hreleased
      simp only [not_exists, Bool.not_eq_true] at hreleased
      exact hblocked ⟨hwait, hreleased⟩
    obtain ⟨delay, sound, hstep⟩ := m.exists_step_eq
    have hpc : m.step.1.pc = if m.skips m.nextInstruction then m.pc + 2 + 2 else m.pc + 2 := by
      rw [hstep, ← m.skips_fetch]
      exact m.fetch.1.pc_execute m.nextInstruction h hfree
    rw [hpc, advance, if_neg hblocked]
    split
    · rw [UInt16.toNat_add, UInt16.toNat_add]
      change ((m.pc.toNat + 2) % 65536 + 2) % 65536 = _
      omega
    · rw [UInt16.toNat_add]
      rfl

/-- What a step leaves alone, by what its instruction does: of two machines the one
before the step and the one after it. -/
structure Framed (m k : Machine) : Prop where
  keypad : k.keypad = m.keypad
  coupled : k.coupled = m.coupled
  random : m.nextInstruction.kind ≠ .random → k.random = m.random
  screen : ¬ m.nextInstruction.kind.Draws → k.screen = m.screen ∧ k.dirty = m.dirty
  stack : m.nextInstruction.kind ∉ [Kind.call, Kind.ret] → k.stack = m.stack
  slot_of_call : m.nextInstruction.kind = .call →
    ∀ j : Fin 16, j.val ≠ m.stack.pointer.toNat → k.stack.slots.get j = m.stack.slots.get j
  slots_of_ret : m.nextInstruction.kind = .ret → k.stack.slots = m.stack.slots
  index : m.nextInstruction.kind ∉ Kind.indexing → k.index = m.index
  cell : ∀ a, ¬ m.Stores a → k.memory.read a = m.memory.read a
  register : ∀ r, ¬ m.Sets r m.nextInstruction → k.reg r = m.reg r
  timer : ∀ t, (k.timer t).toNat = ((m.timerWrite m.nextInstruction t).getD (m.timer t)).toNat -
    (if m.coupled ∧ ¬ m.Blocked then 1 else 0)
  pc : m.nextInstruction.kind ∉ Kind.jumping → k.pc.toNat = (m.pc.toNat + m.advance) % 65536
  unknown : m.nextInstruction.kind = .unknown →
    k = { m with pc := m.pc + 2, delay := k.delay, sound := k.sound }

theorem toNat_ticked :
    m.stepAct.ticked.toNat = if m.coupled ∧ ¬ m.Blocked then 1 else 0 := by
  have hticked : m.stepAct.ticked = decide (m.coupled ∧ ¬ m.Blocked) := by
    rw [stepAct, Bool.decide_and, decide_not, Bool.decide_coe]
  rw [hticked]
  by_cases h : m.coupled ∧ ¬ m.Blocked
  · rw [decide_eq_true h, if_pos h]
    rfl
  · rw [decide_eq_false h, if_neg h]
    rfl

theorem framed_step : Framed m m.step.1 := by
  obtain ⟨delay, sound, hstep⟩ := m.exists_step_eq
  have hkeypad := m.fetch.1.keypad_execute m.nextInstruction
  constructor
  case keypad => rw [hstep]; exact hkeypad.1
  case coupled => rw [hstep]; exact hkeypad.2
  case random => rw [hstep]; exact m.fetch.1.random_execute m.nextInstruction
  case screen =>
    intro hdraws
    rw [hstep]
    exact m.fetch.1.screen_execute m.nextInstruction hdraws
  case stack =>
    intro h
    rw [List.mem_cons, List.mem_singleton, not_or] at h
    rw [hstep]
    exact m.fetch.1.stack_execute m.nextInstruction h.1 h.2
  case slot_of_call =>
    intro hcall j hj
    rw [← kind_step] at hcall
    rw [m.stack_step_of_call hcall, CallStack.get_push, if_neg hj.symm]
  case slots_of_ret =>
    intro hret
    rw [← kind_step] at hret
    rw [(m.step_of_ret hret).1]
    rfl
  case index => rw [hstep]; exact m.fetch.1.index_execute m.nextInstruction
  case cell =>
    intro a ha
    rw [hstep]
    apply m.fetch.1.read_execute
    intro j hj heq
    exact ha ⟨j, hj, heq⟩
  case register =>
    intro r hr
    rw [hstep]
    exact m.fetch.1.reg_execute m.nextInstruction r hr
  case timer =>
    intro t
    rw [m.timed_step.timer t, toNat_ticked]
    rfl
  case pc => exact m.pc_step
  case unknown =>
    intro h
    cases hi : m.nextInstruction with
    | unknown w =>
      rw [hstep, hi]
      rfl
    | _ => rw [hi] at h; exact Kind.noConfusion h

/-- Over a run a cell keeps its value unless one of the steps stored a block that
holds it. -/
theorem read_run (n a : Nat) :
    (m.run n).1.memory.read a = m.memory.read a ∨ ∃ i < n, (m.run i).1.Stores a := by
  induction n with
  | zero => exact Or.inl rfl
  | succ n ih =>
    by_cases hstores : (m.run n).1.Stores a
    · exact Or.inr ⟨n, Nat.lt_succ_self n, hstores⟩
    · rcases ih with hkept | ⟨i, hi, hstored⟩
      · rw [run_succ, (m.run n).1.framed_step.cell a hstores]
        exact Or.inl hkept
      · exact Or.inr ⟨i, Nat.lt_succ_of_lt hi, hstored⟩

/-- Every step leaves alone what its instruction does not name, and so every run of
steps the cells of the memory that none of them stored. -/
theorem framed_step_and_read_run :
    Framed m m.step.1 ∧ ∀ n a,
      (m.run n).1.memory.read a = m.memory.read a ∨ ∃ i < n, (m.run i).1.Stores a :=
  ⟨m.framed_step, m.read_run⟩

end Machine

end ChipEight
