import ChipEight.Proofs.Machine.AddressAlias
import ChipEight.Proofs.Machine.Frame
import Mathlib.Algebra.GroupWithZero.Nat
import Mathlib.Data.List.Basic

/-!
Registers moved to memory and back in blocks. A transfer is one instruction, but no two
registers of a block have the same cell, so it does what moving them one by one does, in
whatever order. Storing and loading undo each other, and one transfer after the other goes
through consecutive cells, also where the index leaves the twelve or the sixteen bits of
an address.
-/

namespace ChipEight

namespace Memory

variable (m : Memory)

theorem writeBytes_append (a : Nat) (first second : List UInt8) :
    m.writeBytes a (first ++ second) =
      (m.writeBytes a first).writeBytes (a + first.length) second := by
  induction first generalizing m a with
  | nil => rfl
  | cons b rest ih =>
    rw [List.cons_append, writeBytes, writeBytes, ih, List.length_cons, Nat.add_right_comm a 1,
      Nat.add_assoc]

/-- The entries of a block are in the cells behind its start, around the end of the memory. -/
theorem read_writeBytes_add {a i : Nat} {bytes : List UInt8} {b : UInt8}
    (h : bytes.length ≤ 4096) (hb : bytes[i]? = some b) :
    (m.writeBytes a bytes).read ((a + i) % 4096) = b := by
  obtain ⟨hi, -⟩ := List.getElem?_eq_some_iff.1 hb
  have hplace : ((a + i) % 4096 + (4096 - a % 4096)) % 4096 = i := by omega
  rw [read_writeBytes _ _ _ _ h, hplace, hb]
  rfl

theorem write_read (a : Nat) : m.write a (m.read a) = m := by
  apply ext_read
  intro q _
  rw [read_write]
  split
  case isTrue h => exact (m.read_congr h).symm
  case isFalse h => rfl

/-- A block that is written where it was read changes nothing. -/
theorem writeBytes_readBytes (a count : Nat) : m.writeBytes a (m.readBytes a count) = m := by
  induction count with
  | zero => rfl
  | succ count ih =>
    have hlast : m.readBytes a (count + 1) = m.readBytes a count ++ [m.read (a + count)] := by
      simp only [readBytes, List.range_succ, List.map_append, List.map_singleton]
    rw [hlast, writeBytes_append, ih, length_readBytes]
    exact m.write_read (a + count)

end Memory

namespace Machine

variable (m : Machine) {last : Register}

def blockCell (r : Register) : Nat := (m.index.toNat + r.val) % 4096

def storeEach (order : List Register) : Memory :=
  order.foldl (fun memory r => memory.write (m.blockCell r) (m.reg r)) m.memory

def loadEach (order : List Register) : Vector UInt8 16 :=
  (order.foldl (fun k r => k.setReg r (m.memory.read (m.blockCell r))) m).registers

theorem storeEach_concat (rest : List Register) (s : Register) :
    m.storeEach (rest ++ [s]) = (m.storeEach rest).write (m.blockCell s) (m.reg s) :=
  List.foldl_concat ..

theorem loadEach_concat (rest : List Register) (s : Register) : m.loadEach (rest ++ [s]) =
    ({ m with registers := m.loadEach rest }.setReg s (m.memory.read (m.blockCell s))).registers := by
  rw [loadEach, List.foldl_concat]
  rfl

theorem blockCell_inj {r s : Register} (h : m.blockCell r = m.blockCell s) : r = s := by
  have hr := r.isLt
  have hs := s.isLt
  unfold blockCell at h
  apply Fin.ext
  omega

theorem read_storeEach_of_mem {order : List Register} {r : Register} (hr : r ∈ order) :
    (m.storeEach order).read (m.blockCell r) = m.reg r := by
  induction order using List.reverseRecOn with
  | nil => exact absurd hr List.not_mem_nil
  | append_singleton rest s ih =>
    rw [storeEach_concat, Memory.read_write]
    by_cases hcell : m.blockCell r = m.blockCell s
    · rw [m.blockCell_inj hcell, if_pos rfl]
    · have hne : m.blockCell r % 4096 ≠ m.blockCell s % 4096 := by
        unfold blockCell at hcell ⊢
        omega
      have hrest : r ∈ rest := by
        rcases List.mem_append.1 hr with hr | hr
        · exact hr
        · exact absurd (congrArg m.blockCell (List.mem_singleton.1 hr)) hcell
      rw [if_neg hne, ih hrest]

theorem read_storeEach_of_ne {order : List Register} {a : Nat}
    (ha : ∀ r ∈ order, m.blockCell r ≠ a % 4096) :
    (m.storeEach order).read a = m.memory.read a := by
  induction order using List.reverseRecOn with
  | nil => rfl
  | append_singleton rest s ih =>
    have hne : a % 4096 ≠ m.blockCell s % 4096 := by
      have hs := ha s (List.mem_append_right rest (List.mem_singleton_self s))
      unfold blockCell at hs ⊢
      omega
    rw [storeEach_concat, Memory.read_write, if_neg hne,
      ih fun r hr => ha r (List.mem_append_left [s] hr)]

theorem reg_loadEach_concat (rest : List Register) (s r : Register) :
    { m with registers := m.loadEach (rest ++ [s]) }.reg r =
      if r = s then m.memory.read (m.blockCell s)
      else { m with registers := m.loadEach rest }.reg r := by
  rw [loadEach_concat, ← reg_setReg]
  rfl

theorem reg_loadEach_of_mem {order : List Register} {r : Register} (hr : r ∈ order) :
    { m with registers := m.loadEach order }.reg r = m.memory.read (m.blockCell r) := by
  induction order using List.reverseRecOn with
  | nil => exact absurd hr List.not_mem_nil
  | append_singleton rest s ih =>
    rw [reg_loadEach_concat]
    by_cases hrs : r = s
    · rw [if_pos hrs, hrs]
    · rw [if_neg hrs]
      exact ih ((List.mem_append.1 hr).resolve_right fun hs => hrs (List.mem_singleton.1 hs))

theorem reg_loadEach_of_notMem {order : List Register} {r : Register} (hr : r ∉ order) :
    { m with registers := m.loadEach order }.reg r = m.reg r := by
  induction order using List.reverseRecOn with
  | nil => rfl
  | append_singleton rest s ih =>
    rw [List.mem_append, List.mem_singleton, not_or] at hr
    rw [reg_loadEach_concat, if_neg hr.2]
    exact ih hr.1

/-- A stored block holds the registers. -/
theorem read_storeRegisters {r : Register} (hr : r ≤ last) :
    (m.execute (.storeRegisters last)).memory.read (m.blockCell r) = m.reg r := by
  have hr' : r.val < last.val + 1 := Nat.lt_succ_of_le hr
  have hlength : (m.registers.toList.take (last.val + 1)).length ≤ 4096 := by
    rw [List.length_take]
    omega
  have hbyte : (m.registers.toList.take (last.val + 1))[r.val]? = some (m.reg r) := by
    rw [List.getElem?_take_of_lt hr']
    simp [reg]
  exact m.memory.read_writeBytes_add hlength hbyte

theorem read_storeRegisters_of_ne {a : Nat} (ha : ∀ r ≤ last, m.blockCell r ≠ a % 4096) :
    (m.execute (.storeRegisters last)).memory.read a = m.memory.read a := by
  apply m.read_execute
  intro j hj
  have hj' : j < last.val + 1 := hj
  exact ha ⟨j, by omega⟩ (Nat.le_of_lt_succ hj')

theorem reg_loadRegisters_of_le {r : Register} (hr : r ≤ last) :
    (m.execute (.loadRegisters last)).reg r = m.memory.read (m.blockCell r) := by
  have hr' : r.val ≤ last.val := hr
  simp only [execute, loadRegisters, reg, Fin.getElem_fin, Vector.getElem_ofFn, hr', if_true,
    blockCell, Memory.read_mod]

/-- Memories are the same if they are on the cells of a block and everywhere else. -/
theorem memory_ext_block (last : Register) {memory memory' : Memory}
    (hblock : ∀ r ≤ last, memory.read (m.blockCell r) = memory'.read (m.blockCell r))
    (hrest : ∀ a, (∀ r ≤ last, m.blockCell r ≠ a % 4096) → memory.read a = memory'.read a) :
    memory = memory' := by
  apply Memory.ext_read
  intro a ha
  by_cases hcell : ∃ r ≤ last, m.blockCell r = a
  · obtain ⟨r, hr, rfl⟩ := hcell
    exact hblock r hr
  · apply hrest
    intro r hr heq
    exact hcell ⟨r, hr, heq.trans (Nat.mod_eq_of_lt ha)⟩

section OneByOne

variable {order : List Register} (horder : ∀ r, r ∈ order ↔ r ≤ last)
include horder

theorem memory_storeRegisters :
    (m.execute (.storeRegisters last)).memory = m.storeEach order := by
  apply m.memory_ext_block last
  · intro r hr
    rw [m.read_storeRegisters hr, m.read_storeEach_of_mem ((horder r).2 hr)]
  · intro a hne
    rw [m.read_storeRegisters_of_ne hne,
      m.read_storeEach_of_ne fun r hr => hne r ((horder r).1 hr)]

theorem registers_loadRegisters :
    (m.execute (.loadRegisters last)).registers = m.loadEach order := by
  apply Vector.ext
  intro i hi
  have hreg : (m.execute (.loadRegisters last)).reg ⟨i, hi⟩ = (m.loadEach order)[i] := by
    by_cases hr : ⟨i, hi⟩ ≤ last
    · rw [m.reg_loadRegisters_of_le hr]
      exact (m.reg_loadEach_of_mem ((horder ⟨i, hi⟩).2 hr)).symm
    · rw [execute, m.reg_loadRegisters last ⟨i, hi⟩ hr]
      exact (m.reg_loadEach_of_notMem fun hmem => hr ((horder ⟨i, hi⟩).1 hmem)).symm
  exact hreg

end OneByOne

theorem toNat_indexBehind (last : Register) :
    (m.indexBehind last).toNat = (m.index.toNat + last.val + 1) % 65536 := UInt16.toNat_ofNat'

/-- What was stored is loaded again, all of it or its first part, whatever happened to
the registers in between. -/
theorem reg_load_of_store {k : Machine} {y r : Register}
    (hmemory : k.memory = (m.execute (.storeRegisters last)).memory) (hindex : k.index = m.index)
    (hy : y ≤ last) (hr : r ≤ y) : (k.execute (.loadRegisters y)).reg r = m.reg r := by
  have hcell : k.blockCell r = m.blockCell r := by rw [blockCell, hindex, blockCell]
  rw [k.reg_loadRegisters_of_le hr, hcell, hmemory]
  exact m.read_storeRegisters (Fin.le_trans hr hy)

/-- What was loaded is stored again where it was. -/
theorem memory_store_of_load {k : Machine}
    (hmemory : k.memory = (m.execute (.loadRegisters last)).memory)
    (hregisters : k.registers = (m.execute (.loadRegisters last)).registers)
    (hindex : k.index = m.index) : (k.execute (.storeRegisters last)).memory = m.memory := by
  have hcells (r : Register) : k.blockCell r = m.blockCell r := by
    rw [blockCell, hindex, blockCell]
  apply k.memory_ext_block last
  · intro r hr
    have hreg : k.reg r = (m.execute (.loadRegisters last)).reg r := by rw [reg, hregisters, reg]
    rw [k.read_storeRegisters hr, hreg, m.reg_loadRegisters_of_le hr, hcells]
  · intro a hne
    rw [k.read_storeRegisters_of_ne hne, hmemory]
    rfl

end Machine

/-- A transfer of the registers 0 to `last`, into memory or out of it. -/
inductive Transfer where
  | store (last : Register)
  | load (last : Register)
  deriving DecidableEq, Repr

namespace Transfer

def instruction : Transfer → Instruction
  | store last => .storeRegisters last
  | load last => .loadRegisters last

def size : Transfer → Nat
  | store last | load last => last.val + 1

def total (ts : List Transfer) : Nat := (ts.map size).sum

theorem total_cons (t : Transfer) (rest : List Transfer) :
    total (t :: rest) = t.size + total rest := List.sum_cons

end Transfer

namespace Machine

def transferAll (m : Machine) (ts : List Transfer) : Machine :=
  ts.foldl (fun m t => m.execute t.instruction) m

def cells (m : Machine) : List Transfer → List Nat
  | [] => []
  | t :: rest => (List.range t.size).map (fun i => (m.index.toNat + i) % 4096) ++
      (m.execute t.instruction).cells rest

/-- The bytes that transfers move, in their order: after each, those of its registers. -/
def carried (m : Machine) : List Transfer → List UInt8
  | [] => []
  | t :: rest => (m.execute t.instruction).registers.toList.take t.size ++
      (m.execute t.instruction).carried rest

variable (m : Machine)

theorem toNat_index_transfer (t : Transfer) :
    (m.execute t.instruction).index.toNat = (m.index.toNat + t.size) % 65536 := by
  cases t with
  | store last => exact m.toNat_indexBehind last
  | load last => exact m.toNat_indexBehind last

theorem length_moved (t : Transfer) :
    ((m.execute t.instruction).registers.toList.take t.size).length = t.size := by
  have hsize : t.size ≤ 16 := by
    cases t with
    | store last | load last => exact last.isLt
  rw [List.length_take, Vector.length_toList]
  exact Nat.min_eq_left hsize

theorem take_loadRegisters (last : Register) :
    (m.execute (.loadRegisters last)).registers.toList.take (last.val + 1) =
      m.memory.readBytes m.index.toNat (last.val + 1) := by
  have hlength := m.length_moved (.load last)
  apply List.ext_getElem
  · rw [Memory.length_readBytes]
    exact hlength
  · intro i hi _
    have hlast : i < last.val + 1 := Nat.lt_of_lt_of_eq hi hlength
    have hr : (⟨i, by omega⟩ : Register) ≤ last := Nat.le_of_lt_succ hlast
    have hload := m.reg_loadRegisters_of_le hr
    rw [blockCell, Memory.read_mod] at hload
    simp only [List.getElem_take, Vector.getElem_toList, Memory.readBytes, List.getElem_map,
      List.getElem_range]
    exact hload

/-- After a transfer, in either direction, its cells hold its registers. -/
theorem memory_transfer (t : Transfer) : (m.execute t.instruction).memory =
    m.memory.writeBytes m.index.toNat
      ((m.execute t.instruction).registers.toList.take t.size) := by
  cases t with
  | store last => rfl
  | load last =>
    rw [Transfer.instruction, Transfer.size, take_loadRegisters, Memory.writeBytes_readBytes]
    rfl

theorem length_carried (ts : List Transfer) : (m.carried ts).length = Transfer.total ts := by
  induction ts generalizing m with
  | nil => rfl
  | cons t rest ih =>
    rw [carried, List.length_append, m.length_moved t, ih, Transfer.total_cons]

theorem cells_eq (ts : List Transfer) : m.cells ts =
    (List.range (Transfer.total ts)).map fun i => (m.index.toNat + i) % 4096 := by
  induction ts generalizing m with
  | nil => rfl
  | cons t rest ih =>
    rw [cells, ih, toNat_index_transfer, Transfer.total_cons, List.range_add, List.map_append,
      List.map_map]
    congr 1
    apply List.map_congr_left
    intro i _
    rw [Function.comp_apply]
    omega

theorem toNat_index_transferAll (ts : List Transfer) :
    (m.transferAll ts).index.toNat = (m.index.toNat + Transfer.total ts) % 65536 := by
  induction ts generalizing m with
  | nil => exact (Nat.mod_eq_of_lt m.index.toNat_lt).symm
  | cons t rest ih =>
    have hrest := ih (m.execute t.instruction)
    rw [toNat_index_transfer] at hrest
    rw [Transfer.total_cons]
    exact hrest.trans (by omega)

theorem memory_transferAll (ts : List Transfer) :
    (m.transferAll ts).memory = m.memory.writeBytes m.index.toNat (m.carried ts) := by
  induction ts generalizing m with
  | nil => rfl
  | cons t rest ih =>
    -- the index has sixteen bits, but of its carry out of them the cells see nothing
    have hnext : (m.execute t.instruction).index.toNat % 4096 =
        (m.index.toNat + t.size) % 4096 := by
      rw [toNat_index_transfer]
      omega
    rw [carried, Memory.writeBytes_append, length_moved, ← memory_transfer,
      ← Memory.writeBytes_congr _ hnext]
    exact ih _

/-- A block moves as its registers do one by one, and stays where it is when it is moved
back. One transfer after the other goes through the cells from the index on, none left
out and none twice until all were gone through. -/
theorem blocks_transferred :
    (∀ (last : Register) (order : List Register), (∀ r, r ∈ order ↔ r ≤ last) →
      m.execute (.storeRegisters last) =
        { m with memory := m.storeEach order, index := m.indexBehind last } ∧
      m.execute (.loadRegisters last) =
        { m with registers := m.loadEach order, index := m.indexBehind last }) ∧
    (∀ last : Register,
      (m.indexBehind last).toNat = (m.index.toNat + last.val + 1) % 65536 ∧
      (∀ a, (∀ r ≤ last, m.blockCell r ≠ a % 4096) →
        (m.execute (.storeRegisters last)).memory.read a = m.memory.read a) ∧
      ∀ r, ¬ r ≤ last → (m.execute (.loadRegisters last)).reg r = m.reg r) ∧
    (∀ (last y : Register) (k : Machine), y ≤ last → k.index = m.index →
      k.memory = (m.execute (.storeRegisters last)).memory →
      ∀ r ≤ y, (k.execute (.loadRegisters y)).reg r = m.reg r) ∧
    (∀ (last : Register) (k : Machine), k.index = m.index →
      k.memory = (m.execute (.loadRegisters last)).memory →
      k.registers = (m.execute (.loadRegisters last)).registers →
      (k.execute (.storeRegisters last)).memory = m.memory) ∧
    ∀ ts : List Transfer,
      m.cells ts = ((List.range (Transfer.total ts)).map fun i => (m.index.toNat + i) % 4096) ∧
      (m.transferAll ts).index.toNat = (m.index.toNat + Transfer.total ts) % 65536 ∧
      (m.carried ts).length = Transfer.total ts ∧
      (m.transferAll ts).memory = m.memory.writeBytes m.index.toNat (m.carried ts) := by
  refine ⟨?_, ?_, ?_, ?_, ?_⟩
  · intro last order horder
    rw [← m.memory_storeRegisters horder, ← m.registers_loadRegisters horder]
    exact ⟨rfl, rfl⟩
  · intro last
    exact ⟨m.toNat_indexBehind last, fun a ha => m.read_storeRegisters_of_ne ha,
      fun r hr => m.reg_loadRegisters last r hr⟩
  · intro last y k hy hindex hmemory r hr
    exact m.reg_load_of_store hmemory hindex hy hr
  · intro last k hindex hmemory hregisters
    exact m.memory_store_of_load hmemory hregisters hindex
  · intro ts
    exact ⟨m.cells_eq ts, m.toNat_index_transferAll ts, m.length_carried ts,
      m.memory_transferAll ts⟩

def beforeEnd : Machine :=
  { ((fresh ⟨0, 0⟩ true).setReg 1 7).setReg 3 9 with index := 0xFFFE }

def refilled : Machine :=
  { fresh ⟨0, 0⟩ true with
    memory := (beforeEnd.execute (.storeRegisters 3)).memory
    index := 0xFFFE }

def filled : Machine := { beforeEnd.execute (.loadRegisters 5) with index := 0xFFFE }

/-- Two of the four registers are stored before the end of the memory and two at its start,
and the three that are loaded again come from both sides. -/
theorem blocks_transferred_beforeEnd :
    beforeEnd.execute (.storeRegisters 3) =
      { beforeEnd with memory := beforeEnd.storeEach [2, 0, 3, 1], index := 2 } ∧
    (refilled.execute (.loadRegisters 2)).reg 1 = 7 ∧
    (filled.execute (.storeRegisters 5)).memory = beforeEnd.memory ∧
    beforeEnd.cells [.store 3, .load 1] = [4094, 4095, 0, 1, 2, 3] := by
  obtain ⟨heach, -, hback, hforth, hcells⟩ := beforeEnd.blocks_transferred
  have hload := hback 3 2 refilled (by decide) rfl rfl 1 (by decide)
  have hkept : beforeEnd.reg 1 = 7 := by decide
  exact ⟨(heach 3 [2, 0, 3, 1] (by decide)).1, hload.trans hkept,
    hforth 5 filled rfl rfl rfl, (hcells [.store 3, .load 1]).1⟩

end Machine

end ChipEight
