import ChipEight.Proofs.Machine.Footprint

/-!
Addresses that name the same cell are interchangeable. The program counter, the
index and the return addresses keep sixteen bits of which the memory looks at
twelve, so a machine may hold any word for a cell in place of another. All that
follows is the same in every other respect, unless an addition to the index tells
by its flag how great the index was.
-/

namespace ChipEight

namespace Word

/-- Two words that are addresses of the same cell of the memory. -/
def SameCell (a b : Word) : Prop := a.toNat % 4096 = b.toNat % 4096

instance (a b : Word) : Decidable (SameCell a b) := inferInstanceAs (Decidable (_ = _))

namespace SameCell

variable {a b : Word}

theorem refl (a : Word) : SameCell a a := rfl

theorem add (h : SameCell a b) (c : Word) : SameCell (a + c) (b + c) := by
  unfold SameCell at *
  rw [UInt16.toNat_add, UInt16.toNat_add]
  omega

theorem sub (h : SameCell a b) (c : Word) : SameCell (a - c) (b - c) := by
  unfold SameCell at *
  rw [UInt16.toNat_sub, UInt16.toNat_sub]
  omega

end SameCell

end Word

namespace Memory

variable (m : Memory) {a b : Nat}

theorem read_congr (h : a % 4096 = b % 4096) : m.read a = m.read b := by
  rw [← m.read_mod a, h, m.read_mod]

theorem word_congr (h : a % 4096 = b % 4096) : m.word a = m.word b := by
  have hnext : (a + 1) % 4096 = (b + 1) % 4096 := by omega
  unfold word
  rw [m.read_congr h, m.read_congr hnext]

theorem readBytes_congr (h : a % 4096 = b % 4096) (count : Nat) :
    m.readBytes a count = m.readBytes b count := by
  unfold readBytes
  apply List.map_congr_left
  intro i _
  apply m.read_congr
  omega

theorem writeBytes_congr (h : a % 4096 = b % 4096) (bytes : List UInt8) :
    m.writeBytes a bytes = m.writeBytes b bytes := by
  induction bytes generalizing m a b with
  | nil => rfl
  | cons byte rest ih =>
    have hnext : (a + 1) % 4096 = (b + 1) % 4096 := by omega
    have hwrite : m.write a byte = m.write b byte := by simp only [write, h]
    rw [writeBytes, writeBytes, hwrite, ih _ hnext]

end Memory

/-- Two events of the same instruction, fetched from the same cell, that differ
in nothing that a host can see. -/
structure Event.Aliases (e f : Event) : Prop where
  address : Word.SameCell e.address f.address
  instruction : e.instruction = f.instruction
  unknown : e.unknown = f.unknown
  waiting : e.waiting = f.waiting
  tone : e.tone = f.tone

namespace Machine

def readdress (m : Machine) (pc index : Word) (slots : Vector Word 16) : Machine :=
  { m with pc := pc, index := index, stack := { m.stack with slots := slots } }

/-- Two machines that agree in everything but the words they hold for the same
cells: in the program counter, in the index and in the slots of the stack. -/
structure Aliases (m k : Machine) : Prop where
  others : k = m.readdress k.pc k.index k.stack.slots
  pc : Word.SameCell m.pc k.pc
  index : Word.SameCell m.index k.index
  slots : ∀ i : Fin 16, Word.SameCell (m.stack.slots.get i) (k.stack.slots.get i)

namespace Aliases

variable {m k : Machine}

theorem skipIf (h : Aliases m k) (condition : Bool) :
    Aliases (m.skipIf condition) (k.skipIf condition) := by
  obtain ⟨hothers, hpc, hindex, hslots⟩ := h
  rw [hothers]
  cases condition with
  | false => exact ⟨rfl, hpc, hindex, hslots⟩
  | true => exact ⟨rfl, hpc.add 2, hindex, hslots⟩

theorem enter (h : Aliases m k) (target : Word) : Aliases (m.enter target) (k.enter target) := by
  obtain ⟨hothers, hpc, hindex, hslots⟩ := h
  rw [hothers]
  refine ⟨rfl, Word.SameCell.refl target, hindex, ?_⟩
  intro i
  have hpointer : (m.readdress k.pc k.index k.stack.slots).stack.pointer = m.stack.pointer := rfl
  simp only [Machine.enter, CallStack.get_push, hpointer]
  split
  · exact hpc
  · exact hslots i

theorem leave (h : Aliases m k) : Aliases m.leave k.leave := by
  obtain ⟨hothers, hpc, hindex, hslots⟩ := h
  rw [hothers]
  exact ⟨rfl, hslots m.stack.top, hindex, hslots⟩

theorem awaitKey (h : Aliases m k) (x : Register) : Aliases (m.awaitKey x) (k.awaitKey x) := by
  obtain ⟨hothers, hpc, hindex, hslots⟩ := h
  rw [hothers]
  have hkeypad : (m.readdress k.pc k.index k.stack.slots).keypad = m.keypad := rfl
  unfold Machine.awaitKey
  rw [hkeypad]
  split
  · exact ⟨rfl, hpc, hindex, hslots⟩
  · exact ⟨rfl, hpc.sub 2, hindex, hslots⟩

theorem drawSprite (h : Aliases m k) (x y : Register) (height : Fin 16) :
    Aliases (m.drawSprite x y height) (k.drawSprite x y height) := by
  obtain ⟨hothers, hpc, hindex, hslots⟩ := h
  rw [hothers]
  have hrows : (m.readdress k.pc k.index k.stack.slots).spriteRows height = m.spriteRows height :=
    m.memory.readBytes_congr hindex.symm height.val
  unfold Machine.drawSprite
  rw [hrows]
  exact ⟨rfl, hpc, hindex, hslots⟩

theorem addIndex (h : Aliases m k) (heq : m.index = k.index) (x : Register) :
    Aliases (m.addIndex x) (k.addIndex x) := by
  obtain ⟨hothers, hpc, -, hslots⟩ := h
  rw [hothers, ← heq]
  exact ⟨rfl, hpc, Word.SameCell.refl _, hslots⟩

theorem storeDecimal (h : Aliases m k) (x : Register) :
    Aliases (m.storeDecimal x) (k.storeDecimal x) := by
  obtain ⟨hothers, hpc, hindex, hslots⟩ := h
  rw [hothers]
  have hmemory : m.memory.writeBytes k.index.toNat (decimalDigits (m.reg x)) =
      m.memory.writeBytes m.index.toNat (decimalDigits (m.reg x)) :=
    m.memory.writeBytes_congr hindex.symm _
  refine ⟨?_, hpc, hindex, hslots⟩
  unfold Machine.storeDecimal
  rw [← hmemory]
  rfl

theorem indexBehind (h : Aliases m k) (last : Register) :
    Word.SameCell (m.indexBehind last) (k.indexBehind last) := by
  have hindex := h.index
  unfold Word.SameCell at *
  unfold Machine.indexBehind
  rw [UInt16.toNat_ofNat', UInt16.toNat_ofNat']
  omega

theorem storeRegisters (h : Aliases m k) (last : Register) :
    Aliases (m.storeRegisters last) (k.storeRegisters last) := by
  have hbehind := h.indexBehind last
  obtain ⟨hothers, hpc, hindex, hslots⟩ := h
  rw [hothers] at hbehind ⊢
  have hmemory : m.memory.writeBytes k.index.toNat (m.registers.toList.take (last.val + 1)) =
      m.memory.writeBytes m.index.toNat (m.registers.toList.take (last.val + 1)) :=
    m.memory.writeBytes_congr hindex.symm _
  refine ⟨?_, hpc, hbehind, hslots⟩
  unfold Machine.storeRegisters
  rw [← hmemory]
  rfl

theorem loadRegisters (h : Aliases m k) (last : Register) :
    Aliases (m.loadRegisters last) (k.loadRegisters last) := by
  have hbehind := h.indexBehind last
  obtain ⟨hothers, hpc, hindex, hslots⟩ := h
  rw [hothers] at hbehind ⊢
  have hread (r : Nat) : m.memory.read (k.index.toNat + r) = m.memory.read (m.index.toNat + r) := by
    apply m.memory.read_congr
    unfold Word.SameCell at hindex
    omega
  unfold Machine.loadRegisters
  refine ⟨?_, hpc, hbehind, hslots⟩
  simp only [readdress, hread]
  rfl

/-- An instruction keeps two machines alike, unless it adds to indices that differ. -/
theorem execute (h : Aliases m k) (i : Instruction)
    (hadd : m.index = k.index ∨ i.kind ≠ .addIndex) :
    Aliases (m.execute i) (k.execute i) := by
  have hreg (r : Register) : k.reg r = m.reg r := by
    rw [h.others]
    rfl
  cases i with
  | ret => exact h.leave
  | call target => exact h.enter target
  | skipEqualByte | skipUnequalByte | skipEqual | skipUnequal =>
    simp only [Machine.execute, hreg]
    exact h.skipIf _
  | skipPressed x | skipReleased x =>
    have hkeypad : k.keypad = m.keypad := by rw [h.others, readdress]
    simp only [Machine.execute, keyInReg, hreg, hkeypad]
    exact h.skipIf _
  | draw x y height => exact h.drawSprite x y height
  | awaitKey x => exact h.awaitKey x
  | addIndex x => exact h.addIndex (hadd.resolve_right fun hne => hne rfl) x
  | storeDecimal x => exact h.storeDecimal x
  | storeRegisters last => exact h.storeRegisters last
  | loadRegisters last => exact h.loadRegisters last
  | jump target =>
    obtain ⟨hothers, -, hindex, hslots⟩ := h
    rw [hothers]
    exact ⟨rfl, Word.SameCell.refl target, hindex, hslots⟩
  | jumpOffset base =>
    obtain ⟨hothers, -, hindex, hslots⟩ := h
    rw [hothers]
    exact ⟨rfl, Word.SameCell.refl _, hindex, hslots⟩
  | setIndex | pointGlyph =>
    obtain ⟨hothers, hpc, -, hslots⟩ := h
    rw [hothers]
    exact ⟨rfl, hpc, Word.SameCell.refl _, hslots⟩
  | _ =>
    obtain ⟨hothers, hpc, hindex, hslots⟩ := h
    rw [hothers]
    exact ⟨rfl, hpc, hindex, hslots⟩

theorem index_execute (h : Aliases m k) (heq : m.index = k.index) (i : Instruction) :
    (m.execute i).index = (k.execute i).index := by
  rw [h.others, ← heq]
  cases i with
  | skipEqualByte | skipUnequalByte | skipEqual | skipUnequal | skipPressed | skipReleased =>
    simp only [Machine.execute, skipIf_eq, readdress]
  | awaitKey x =>
    obtain ⟨registers, pc, hm⟩ := m.exists_awaitKey_eq x
    obtain ⟨registers', pc', hk⟩ :=
      (m.readdress k.pc m.index k.stack.slots).exists_awaitKey_eq x
    rw [Machine.execute, Machine.execute, hm, hk]
    rfl
  | loadRegisters last =>
    simp only [Machine.execute, Machine.loadRegisters, Machine.indexBehind, readdress]
  | _ => rfl

theorem fetch (h : Aliases m k) : Aliases m.fetch.1 k.fetch.1 ∧ m.fetch.2 = k.fetch.2 := by
  obtain ⟨hothers, hpc, hindex, hslots⟩ := h
  rw [hothers]
  exact ⟨⟨rfl, hpc.add 2, hindex, hslots⟩, m.memory.word_congr hpc⟩

theorem tick (h : Aliases m k) : Aliases m.tick.1 k.tick.1 ∧ m.tick.2 = k.tick.2 := by
  obtain ⟨hothers, hpc, hindex, hslots⟩ := h
  rw [hothers]
  exact ⟨⟨rfl, hpc, hindex, hslots⟩, rfl⟩

theorem step (h : Aliases m k) (hadd : m.index = k.index ∨ m.step.2.kind ≠ .addIndex) :
    Aliases m.step.1 k.step.1 ∧ m.step.2.Aliases k.step.2 := by
  obtain ⟨hfetched, hword⟩ := h.fetch
  rw [kind_step] at hadd
  have hafter := hfetched.execute m.nextInstruction hadd
  have hcoupled : (k.fetch.1.execute m.nextInstruction).coupled =
      (m.fetch.1.execute m.nextInstruction).coupled := by rw [hafter.others, readdress]
  have hkeypad : (k.fetch.1.execute m.nextInstruction).keypad =
      (m.fetch.1.execute m.nextInstruction).keypad := by rw [hafter.others, readdress]
  have hnext : Instruction.ofWord m.fetch.2 = m.nextInstruction := rfl
  simp only [Machine.step, ← hword, hnext, hcoupled, hkeypad]
  split
  · obtain ⟨hticked, htone⟩ := hafter.tick
    exact ⟨hticked, h.pc, rfl, rfl, rfl, htone⟩
  · exact ⟨hafter, h.pc, rfl, rfl, rfl, rfl⟩

theorem index_step (h : Aliases m k) (heq : m.index = k.index) :
    m.step.1.index = k.step.1.index := by
  obtain ⟨hfetched, hword⟩ := h.fetch
  obtain ⟨delay, sound, hm⟩ := m.exists_step_eq
  obtain ⟨delay', sound', hk⟩ := k.exists_step_eq
  have hnext : k.nextInstruction = m.nextInstruction := by
    rw [nextInstruction, ← hword, nextInstruction]
  rw [hm, hk, hnext]
  exact hfetched.index_execute heq m.nextInstruction

end Aliases

variable {m k : Machine}

/-- Machines that hold other words for the same cells run alike, as long as the
indices are equal or nothing is added to them. -/
theorem run_aliases (h : Aliases m k) (n : Nat)
    (hadd : m.index = k.index ∨ ∀ e ∈ (m.run n).2, e.kind ≠ .addIndex) :
    Aliases (m.run n).1 (k.run n).1 ∧
      (m.index = k.index → (m.run n).1.index = (k.run n).1.index) ∧
      List.Forall₂ Event.Aliases (m.run n).2 (k.run n).2 := by
  induction n generalizing m k with
  | zero => exact ⟨h, id, List.Forall₂.nil⟩
  | succ n ih =>
    rw [run, List.forall_mem_cons] at hadd
    obtain ⟨hstep, hevent⟩ := h.step (hadd.imp_right And.left)
    -- once equal the indices stay so, and else no later step adds to them either
    have hrest : m.step.1.index = k.step.1.index ∨
        ∀ e ∈ (Machine.run n m.step.1).2, e.kind ≠ .addIndex :=
      hadd.imp h.index_step And.right
    obtain ⟨hrun, hindex, hevents⟩ := ih hstep hrest
    exact ⟨hrun, fun heq => hindex (h.index_step heq), List.Forall₂.cons hevent hevents⟩

def lowAddresses : Machine :=
  let fresh := Machine.fresh ⟨0, 0⟩ true
  let program := [0xF2, 0x65, 0x22, 0x06, 0x00, 0x00, 0x00, 0xEE]
  { fresh with memory := fresh.memory.writeBytes Program.origin program }

def highAddresses : Machine := lowAddresses.readdress 0x1200 0xF000 (Vector.replicate 16 0x3000)

/-- Both come back from the subroutine, each to its own word for the same cell. -/
theorem run_aliases_highAddresses :
    Aliases lowAddresses highAddresses ∧
      (∀ e ∈ (lowAddresses.run 3).2, e.kind ≠ .addIndex) ∧
      Aliases (lowAddresses.run 3).1 (highAddresses.run 3).1 ∧
      List.Forall₂ Event.Aliases (lowAddresses.run 3).2 (highAddresses.run 3).2 ∧
      (lowAddresses.run 3).1.pc = 0x204 ∧ (highAddresses.run 3).1.pc = 0x1204 := by
  have halias : Aliases lowAddresses highAddresses :=
    ⟨rfl, by decide, by decide, by decide⟩
  have hadd : ∀ e ∈ (lowAddresses.run 3).2, e.kind ≠ .addIndex := by decide +kernel
  obtain ⟨hrun, -, hevents⟩ := run_aliases halias 3 (Or.inr hadd)
  exact ⟨halias, hadd, hrun, hevents, by decide +kernel, by decide +kernel⟩

end Machine

end ChipEight
