import ChipEight.Proofs.Machine.BlockTransfer
import ChipEight.Proofs.Machine.CallReturn
import ChipEight.Proofs.Machine.Indexing
import ChipEight.Proofs.Screen.DrawSprite

/-!
No instruction reads or writes outside an array, on any machine that can be reached. The
masks keep every number below the size of its array, the pointer of the stack is below
sixteen from the first instruction on, and the cells of a block or the pixels of a sprite are
different. So a library of arrays has nothing to decide.
-/

namespace ChipEight

namespace Recorded

variable {α β : Type} {P : Access → Prop}

/-- A computation that gives a value by accesses of some kind only. -/
structure Safe (c : Recorded α) (P : Access → Prop) (v : α) : Prop where
  value_eq : c.value = v
  accesses : ∀ a ∈ c.accesses, P a

theorem Safe.pure (v : α) : (Pure.pure v : Recorded α).Safe P v where
  value_eq := rfl
  accesses := fun _ ha => absurd ha List.not_mem_nil

theorem Safe.bind {c : Recorded α} {f : α → Recorded β} {v : α} {u : β} (hc : c.Safe P v)
    (hf : (f v).Safe P u) : (c >>= f).Safe P u := by
  obtain ⟨rfl, haccesses⟩ := hc
  refine ⟨hf.value_eq, ?_⟩
  intro a ha
  rcases List.mem_append.1 ha with ha | ha
  · exact haccesses a ha
  · exact hf.accesses a ha

theorem Safe.mono {c : Recorded α} {v : α} {Q : Access → Prop} (hc : c.Safe P v)
    (h : ∀ a, P a → Q a) : c.Safe Q v :=
  ⟨hc.value_eq, fun a ha => h a (hc.accesses a ha)⟩

end Recorded

open Recorded

/-- Nothing but the entries decides what a write leaves. -/
theorem Written.unique {α : Type} {n : Nat} {cells after after' : Vector α n}
    {entries : List (Nat × α)} (h : Written cells entries after)
    (h' : Written cells entries after') : after = after' := by
  apply Vector.ext
  intro i hi
  by_cases hentry : ∃ e ∈ entries, e.1 = i
  · obtain ⟨e, he, rfl⟩ := hentry
    rw [h.entry e he hi, h'.entry e he hi]
  · have hother : ∀ e ∈ entries, e.1 ≠ i := fun e he heq => hentry ⟨e, he, heq⟩
    rw [h.other i hi hother, h'.other i hi hother]

theorem written_singleton {α : Type} {n : Nat} (cells : Vector α n) {i : Nat} (h : i < n)
    (a : α) : Written cells [(i, a)] (cells.set i a) where
  entry := by
    intro e he hinside
    obtain rfl := List.mem_singleton.1 he
    exact Vector.getElem_set_self hinside
  other := fun _ hj hne => Vector.getElem_set_ne h hj (hne _ (List.mem_singleton_self _))

namespace Indexing

variable (lib : Indexing) {α : Type} {n : Nat} (cells : Vector α n)

theorem safe_read [Inhabited α] {i : Nat} (h : i < n) :
    (lib.read cells i).Safe Access.Inside cells[i] where
  value_eq := lib.get_eq cells i h
  accesses := by
    intro a ha
    rw [List.mem_singleton.1 ha]
    exact h

theorem safe_gather [Inhabited α] {count : Nat} {positions : Fin count → Nat}
    (h : ∀ j, positions j < n) :
    (lib.gather cells positions).Safe Access.Inside (fun j => cells.get ⟨positions j, h j⟩) where
  value_eq := funext fun j => lib.get_eq cells (positions j) (h j)
  accesses := by
    intro a ha
    obtain ⟨j, -, rfl⟩ := List.mem_map.1 ha
    exact h j

theorem safe_write {entries : List (Nat × α)} {after : Vector α n}
    (hinside : ∀ p ∈ entries.map Prod.fst, p < n) (hnodup : (entries.map Prod.fst).Nodup)
    (hafter : Written cells entries after) :
    (lib.write cells entries).Safe Access.Inside after where
  value_eq := (lib.written_set cells entries hinside hnodup).unique hafter
  accesses := by
    intro a ha
    rw [List.mem_singleton.1 ha]
    exact ⟨hinside, hnodup⟩

theorem safe_writeKept {entries : List (Nat × α)} {after : Vector α n}
    (hnodup : ((entries.map Prod.fst).filter (· < n)).Nodup)
    (hafter : Written cells entries after) :
    (lib.writeKept cells entries).Safe (· = .writeKept n (entries.map Prod.fst)) after where
  value_eq := (lib.written_setKept cells entries hnodup).unique hafter
  accesses := fun _ ha => List.mem_singleton.1 ha

theorem safe_write_one {i : Nat} (h : i < n) (a : α) :
    (lib.write cells [(i, a)]).Safe Access.Inside (cells.set i a) := by
  apply lib.safe_write cells
  · intro p hp
    rw [List.mem_singleton.1 hp]
    exact h
  · exact List.nodup_singleton i
  · exact written_singleton cells h a

end Indexing

section Operands

variable (w : Word)

theorem and_addressMask (a : Nat) : a &&& 0xFFF = a % 4096 := Nat.and_two_pow_sub_one_eq_mod a 12

theorem and_nibbleMask (a : Nat) : a &&& 0xF = a % 16 := Nat.and_two_pow_sub_one_eq_mod a 4

theorem Word.x_eq : (w.toNat &&& 0x0F00) >>> 8 = (Word.x w).val := by
  rw [Nat.shiftRight_and_distrib, Nat.shiftRight_eq_div_pow]
  exact and_nibbleMask _

theorem Word.y_eq : (w.toNat &&& 0x00F0) >>> 4 = (Word.y w).val := by
  rw [Nat.shiftRight_and_distrib, Nat.shiftRight_eq_div_pow]
  exact and_nibbleMask _

theorem Word.n_eq : w.toNat &&& 0x000F = (Word.n w).val := and_nibbleMask _

end Operands

namespace Machine

variable (lib : Indexing) (m : Machine)

section Registers

variable (x y : Register)

theorem safe_readReg : (m.readReg lib x.val).Safe Access.Inside (m.reg x) :=
  lib.safe_read m.registers x.isLt

theorem safe_writeReg (b : UInt8) : (m.writeReg lib x.val b).Safe Access.Inside (m.setReg x b) :=
  (lib.safe_write_one m.registers x.isLt b).bind (Safe.pure _)

theorem safe_keyAt : (m.keyAt lib x.val).Safe Access.Inside (m.keyInReg x) := by
  refine (m.safe_readReg lib x).bind ?_
  rw [and_nibbleMask]
  exact lib.safe_read m.keypad.keys (Nat.mod_lt _ (by decide))

theorem safe_combine (result : UInt8 → UInt8 → UInt8) :
    (m.combine lib result x.val y.val).Safe Access.Inside
      (m.setReg x (result (m.reg x) (m.reg y))) :=
  (m.safe_readReg lib x).bind ((m.safe_readReg lib y).bind (m.safe_writeReg lib x _))

theorem safe_combineFlag (result : UInt8 → UInt8 → UInt8) (on : UInt8 → UInt8 → Bool) :
    (m.combineFlag lib result on x.val y.val).Safe Access.Inside
      (m.setRegFlag x (result (m.reg x) (m.reg y)) (on (m.reg x) (m.reg y))) :=
  (m.safe_readReg lib x).bind <| (m.safe_readReg lib y).bind <|
    (m.safe_writeReg lib x _).bind (safe_writeReg lib _ flag _)

theorem safe_skipComparing (holds : UInt8 → UInt8 → Bool) :
    (m.skipComparing lib holds x.val y.val).Safe Access.Inside
      (m.skipIf (holds (m.reg x) (m.reg y))) :=
  (m.safe_readReg lib x).bind ((m.safe_readReg lib y).bind (Safe.pure _))

theorem safe_addIndex : (m.addIndexIndexed lib x.val).Safe Access.Inside (m.addIndex x) :=
  (m.safe_readReg lib x).bind ((m.safe_writeReg lib flag _).bind (Safe.pure _))

theorem setReg_reg : m.setReg x (m.reg x) = m := by
  simp [setReg, reg]

theorem safe_awaitKey : (m.awaitKeyIndexed lib x.val).Safe Access.Inside (m.awaitKey x) := by
  refine (m.safe_readReg lib x).bind ?_
  rw [awaitKey]
  cases m.keypad.lowest? with
  | some k => exact m.safe_writeReg lib x _
  | none =>
    have hsame := m.safe_writeReg lib x (m.reg x)
    rw [setReg_reg] at hsame
    exact hsame.bind (Safe.pure _)

end Registers

section Stack

/-- The one access for which the reached states matter. -/
theorem safe_enter (h : m.stack.pointer.toNat < 16) (target : Word) :
    (m.enterIndexed lib target).Safe Access.Inside (m.enter target) := by
  refine (lib.safe_write_one m.stack.slots h m.pc).bind ?_
  have hslots : m.stack.slots.setIfInBounds m.stack.pointer.toNat m.pc =
      m.stack.slots.set m.stack.pointer.toNat m.pc := by
    apply Vector.ext
    intro i hi
    rw [Vector.getElem_setIfInBounds, Vector.getElem_set]
  rw [enter, CallStack.push, hslots]
  exact Safe.pure _

theorem safe_leave : (m.leaveIndexed lib).Safe Access.Inside m.leave :=
  (lib.safe_read m.stack.slots (Nat.mod_lt _ (by decide))).bind (Safe.pure _)

end Stack

end Machine

section Blocks

variable (a : Nat) {bytes : List UInt8}

theorem map_fst_placed (bytes : List UInt8) : (placed a bytes).map Prod.fst =
    (List.range bytes.length).map fun i => (a + i) % 4096 := by
  simp only [placed, List.map_map, ← and_addressMask]
  rw [List.range_eq_range', ← List.zipIdx_map_snd, List.map_map]
  rfl

theorem lt_of_mem_placed : ∀ p ∈ (placed a bytes).map Prod.fst, p < 4096 := by
  intro p hp
  rw [map_fst_placed] at hp
  obtain ⟨i, -, rfl⟩ := List.mem_map.1 hp
  exact Nat.mod_lt _ (by decide)

/-- A block that is no longer than the memory has a cell for each of its bytes. -/
theorem nodup_placed (h : bytes.length ≤ 4096) : ((placed a bytes).map Prod.fst).Nodup := by
  rw [map_fst_placed]
  apply List.nodup_range.map_on
  intro i hi j hj heq
  rw [List.mem_range] at hi hj
  omega

theorem Memory.getElem_cells (m : Memory) {q : Nat} (h : q < 4096) : m.cells[q] = m.read q := by
  simp [read, Nat.mod_eq_of_lt h]

theorem Memory.written_placed {m k : Memory}
    (hentry : ∀ (i : Nat) (h : i < bytes.length), k.read (a + i) = bytes[i])
    (hother : ∀ q, (∀ i < bytes.length, (a + i) % 4096 ≠ q % 4096) → k.read q = m.read q) :
    Written m.cells (placed a bytes) k.cells where
  entry := by
    intro e he hlt
    obtain ⟨⟨b, i⟩, hmem, rfl⟩ := List.mem_map.1 he
    obtain ⟨hi, hb⟩ := List.getElem?_eq_some_iff.1 (List.mem_zipIdx_iff_getElem?.1 hmem)
    rw [k.getElem_cells hlt, and_addressMask, k.read_mod, hentry i hi, hb]
  other := by
    intro q hq hne
    rw [k.getElem_cells hq, m.getElem_cells hq]
    apply hother
    intro i hi heq
    have hmem : ((a + i) &&& 0xFFF, bytes[i]) ∈ placed a bytes :=
      List.mem_map.2 ⟨(bytes[i], i), by simp [List.mem_zipIdx_iff_getElem?], rfl⟩
    apply hne _ hmem
    rw [and_addressMask, heq, Nat.mod_eq_of_lt hq]

end Blocks

namespace Machine

variable (lib : Indexing) (m : Machine)

theorem safe_gather_cells {count : Nat} : (lib.gather m.memory.cells
      fun j : Fin count => (m.index.toNat + j.val) &&& 0xFFF).Safe Access.Inside
    (fun j => m.memory.read (m.index.toNat + j.val)) := by
  simp only [and_addressMask]
  exact lib.safe_gather m.memory.cells fun j => Nat.mod_lt _ (by decide)

theorem safe_storeDecimal (x : Register) :
    (m.storeDecimalIndexed lib x.val).Safe Access.Inside (m.storeDecimal x) := by
  have hlength : (decimalDigits (m.reg x)).length ≤ 4096 := by simp [decimalDigits]
  have hwritten : Written m.memory.cells (placed m.index.toNat (decimalDigits (m.reg x)))
      (m.storeDecimal x).memory.cells := by
    apply Memory.written_placed
    · intro i hi
      have hplace : (m.index.toNat + i + (4096 - m.index.toNat % 4096)) % 4096 = i := by omega
      rw [storeDecimal, Memory.read_writeBytes _ _ _ _ hlength, hplace,
        List.getElem?_eq_getElem hi]
      rfl
    · intro q hq
      exact m.memory.read_writeBytes_of_ne _ _ _ hq
  exact (m.safe_readReg lib x).bind <|
    (lib.safe_write _ (lt_of_mem_placed _) (nodup_placed _ hlength) hwritten).bind (Safe.pure _)

/-- The bytes that a store writes: registers, and from behind the last of them on the bytes
that are there already. -/
def storedBytes (last : Register) : List UInt8 :=
  List.ofFn fun r : Register =>
    if r.val ≤ last.val then m.reg r else m.memory.read (m.index.toNat + r.val)

theorem written_storedBytes (last : Register) :
    Written m.memory.cells (placed m.index.toNat (m.storedBytes last))
      (m.storeRegisters last).memory.cells := by
  apply Memory.written_placed
  · intro i hi
    rw [storedBytes, List.length_ofFn] at hi
    simp only [storedBytes, List.getElem_ofFn]
    by_cases hlast : i ≤ last.val
    · rw [if_pos hlast]
      have hr : (⟨i, hi⟩ : Register) ≤ last := hlast
      have hread := m.read_storeRegisters hr
      rw [blockCell, Memory.read_mod] at hread
      exact hread
    · rw [if_neg hlast]
      apply m.read_storeRegisters_of_ne
      intro r hr
      have hr' : r.val ≤ last.val := hr
      unfold blockCell
      omega
  · intro q hq
    apply m.read_storeRegisters_of_ne
    intro r _
    exact hq r.val (by simp [storedBytes])

theorem safe_storeRegisters (last : Register) :
    (m.storeRegistersIndexed lib last.val).Safe Access.Inside (m.storeRegisters last) := by
  have hlength : (m.storedBytes last).length ≤ 4096 := by simp [storedBytes]
  exact (m.safe_gather_cells lib).bind <|
    (lib.safe_write _ (lt_of_mem_placed _) (nodup_placed _ hlength)
      (m.written_storedBytes last)).bind (Safe.pure _)

theorem safe_loadRegisters (last : Register) :
    (m.loadRegistersIndexed lib last.val).Safe Access.Inside (m.loadRegisters last) :=
  (m.safe_gather_cells lib).bind (Safe.pure _)

section Pixels

variable (rows : Fin 16 → UInt8) (height vx vy : Nat)

/-- A position on the screen is that of one lit bit at most. -/
theorem spritePosition_eq_iff {bit : Fin 16 × Fin 8} {p : Nat} (hp : p < 2048) :
    spritePosition rows height vx vy bit = p ↔
      bit.1.val < height ∧ (rows bit.1).toNat.testBit (7 - bit.2.val) = true ∧
        p = vx + bit.2.val + (vy + bit.1.val) * 64 := by
  unfold spritePosition
  dsimp only
  split
  case isTrue h =>
    simp only [h.1, h.2.1, true_and]
    exact eq_comm
  case isFalse h =>
    refine iff_of_false (Nat.ne_of_gt hp) ?_
    rintro ⟨hrow, hlit, rfl⟩
    exact h ⟨hrow, hlit, hp⟩

theorem lt_or_eq_of_mem_spritePositions :
    ∀ p ∈ spritePositions rows height vx vy, p < 2048 ∨ p = 2048 := by
  intro p hp
  obtain ⟨bit, -, rfl⟩ := List.mem_map.1 hp
  unfold spritePosition
  dsimp only
  split
  case isTrue h => exact Or.inl h.2.2
  case isFalse => exact Or.inr rfl

/-- The pixels that are drawn are different: a row of a sprite is shorter than one of the
screen. -/
theorem nodup_spritePositions :
    ((spritePositions rows height vx vy).filter (· < 2048)).Nodup := by
  rw [spritePositions, List.filter_map]
  have hbits : (List.finRange 16 ×ˢ List.finRange 8).Nodup :=
    (List.nodup_finRange 16).product (List.nodup_finRange 8)
  apply (hbits.filter _).map_on
  intro bit hbit bit' _ heq
  have hp : spritePosition rows height vx vy bit < 2048 :=
    of_decide_eq_true (List.mem_filter.1 hbit).2
  obtain ⟨-, -, hplace⟩ := (spritePosition_eq_iff rows height vx vy hp).1 rfl
  obtain ⟨-, -, hplace'⟩ := (spritePosition_eq_iff rows height vx vy hp).1 heq.symm
  apply Prod.ext
  · apply Fin.ext
    omega
  · apply Fin.ext
    omega

end Pixels

def spriteBytes (row : Fin 16) : UInt8 := m.memory.read (m.index.toNat + row.val)

theorem written_mask (x y : Register) (height : Fin 16) :
    Written (Vector.replicate (64 * 32) false)
      ((spritePositions m.spriteBytes height.val (m.reg x).toNat (m.reg y).toNat).map
        fun p => (p, true))
      (Sprite.mask (m.spriteRows height) (m.spriteStart x y)).cells := by
  have hcell (p : Nat) (hp : p < 64 * 32) :
      (Sprite.mask (m.spriteRows height) (m.spriteStart x y)).cells[p] = true ↔
        p ∈ spritePositions m.spriteBytes height.val (m.reg x).toNat (m.reg y).toNat := by
    simp only [Sprite.mask, Bitmap.ofCells, Vector.getElem_ofFn, Sprite.covers_eq_true_iff,
      spriteRows, Memory.getElem?_readBytes_eq_some_iff, spriteStart, spritePositions,
      List.mem_map]
    constructor
    · rintro ⟨row, byte, ⟨hrow, rfl⟩, col, hcol, hlit, hplace⟩
      refine ⟨(⟨row, by omega⟩, ⟨col, hcol⟩), by simp, ?_⟩
      rw [spritePosition_eq_iff _ _ _ _ hp]
      exact ⟨hrow, hlit, by dsimp only; omega⟩
    · rintro ⟨bit, -, hbit⟩
      rw [spritePosition_eq_iff _ _ _ _ hp] at hbit
      exact ⟨bit.1.val, _, ⟨hbit.1, rfl⟩, bit.2.val, bit.2.isLt, hbit.2.1, by omega⟩
  constructor
  · intro e he hlt
    obtain ⟨p, hp, rfl⟩ := List.mem_map.1 he
    exact (hcell p hlt).2 hp
  · intro p hp hne
    rw [Vector.getElem_replicate, ← Bool.not_eq_true, hcell p hp]
    intro hmem
    exact hne (p, true) (List.mem_map.2 ⟨p, hmem, rfl⟩) rfl

theorem safe_draw (x y : Register) (height : Fin 16) :
    (m.drawIndexed lib x.val y.val height.val).Safe (fun a => a.Inside ∨ a.PixelsInside)
      (m.drawSprite x y height) := by
  have hfst : ((spritePositions m.spriteBytes height.val (m.reg x).toNat (m.reg y).toNat).map
      fun p => (p, true)).map Prod.fst =
      spritePositions m.spriteBytes height.val (m.reg x).toNat (m.reg y).toNat := by
    rw [List.map_map]
    exact List.map_id _
  have hnodup := nodup_spritePositions m.spriteBytes height.val (m.reg x).toNat (m.reg y).toNat
  rw [← hfst] at hnodup
  refine ((m.safe_readReg lib x).mono fun _ => Or.inl).bind ?_
  refine ((m.safe_readReg lib y).mono fun _ => Or.inl).bind ?_
  refine ((m.safe_gather_cells lib).mono fun _ => Or.inl).bind ?_
  refine ((lib.safe_writeKept _ hnodup (m.written_mask x y height)).mono ?_).bind ?_
  · intro a ha
    rw [ha, hfst]
    exact Or.inr ⟨rfl, lt_or_eq_of_mem_spritePositions _ _ _ _, nodup_spritePositions _ _ _ _⟩
  · exact ((m.safe_writeReg lib flag _).mono fun _ => Or.inl).bind (Safe.pure _)

/-- Whatever the library, a word does to a machine what its instruction does, and only the
drawing of a sprite leaves the arrays. -/
theorem safe_execute (h : m.stack.pointer.toNat < 16) (w : Word) :
    (m.executeIndexed lib w).Safe
      (fun a => a.Inside ∨ Kind.ofWord w = .draw ∧ a.PixelsInside)
      (m.execute (Instruction.ofWord w)) := by
  unfold executeIndexed
  simp only [Word.x_eq, Word.y_eq, Word.n_eq, Instruction.ofWord]
  have hmono {c : Recorded Machine} {v : Machine} (hc : c.Safe Access.Inside v) :
      c.Safe (fun a => a.Inside ∨ Kind.ofWord w = .draw ∧ a.PixelsInside) v :=
    hc.mono fun _ => Or.inl
  generalize Kind.ofWord w = k at hmono ⊢
  cases k with
  | draw =>
    refine (m.safe_draw lib _ _ _).mono fun a ha => ?_
    exact ha.imp_right fun hpixels => ⟨rfl, hpixels⟩
  | clear | jump | setIndex | unknown => exact Safe.pure _
  | ret => exact hmono (m.safe_leave lib)
  | call => exact hmono (m.safe_enter lib h _)
  | skipEqualByte | skipUnequalByte | setDelay | setSound | pointGlyph =>
    exact hmono ((m.safe_readReg lib _).bind (Safe.pure _))
  | jumpOffset => exact hmono ((m.safe_readReg lib 0).bind (Safe.pure _))
  | skipEqual | skipUnequal => exact hmono (m.safe_skipComparing lib _ _ _)
  | setByte | readDelay => exact hmono (m.safe_writeReg lib _ _)
  | addByte => exact hmono ((m.safe_readReg lib _).bind (m.safe_writeReg lib _ _))
  | copy | or | and | xor => exact hmono (m.safe_combine lib _ _ _)
  | add | subtract | shiftRight | subtractFrom | shiftLeft =>
    exact hmono (m.safe_combineFlag lib _ _ _ _)
  | random => exact hmono ((m.safe_writeReg lib _ _).bind (Safe.pure _))
  | skipPressed | skipReleased => exact hmono ((m.safe_keyAt lib _).bind (Safe.pure _))
  | awaitKey => exact hmono (m.safe_awaitKey lib _)
  | addIndex => exact hmono (m.safe_addIndex lib _)
  | storeDecimal => exact hmono (m.safe_storeDecimal lib _)
  | storeRegisters => exact hmono (m.safe_storeRegisters lib _)
  | loadRegisters => exact hmono (m.safe_loadRegisters lib _)

theorem safe_fetch : (m.fetchIndexed lib).Safe Access.Inside m.fetch := by
  have hread (a : Nat) :
      (lib.read m.memory.cells (a &&& 0xFFF)).Safe Access.Inside (m.memory.read a) := by
    rw [and_addressMask]
    exact lib.safe_read m.memory.cells (Nat.mod_lt _ (by decide))
  have hlow := hread ((m.pc.toNat &&& 0xFFF) + 1)
  have hcell : m.memory.read ((m.pc.toNat &&& 0xFFF) + 1) = m.memory.read (m.pc.toNat + 1) := by
    apply m.memory.read_congr
    rw [and_addressMask]
    omega
  rw [hcell] at hlow
  exact (hread m.pc.toNat).bind (hlow.bind (Safe.pure _))

/-- The machines that a host can make of a fresh one. -/
inductive Reachable : Machine → Prop where
  | fresh (random : RandomKey) (coupled : Bool) : Reachable (Machine.fresh random coupled)
  | load {m : Machine} (p : Program) : Reachable m → Reachable (m.load p)
  | setKey {m k : Machine} (key : Int) (pressed : Bool) :
    Reachable m → m.setKey key pressed = .ok k → Reachable k
  | setKeys {m k : Machine} (flags : List Bool) :
    Reachable m → m.setKeys flags = .ok k → Reachable k
  | markShown {m : Machine} : Reachable m → Reachable m.markShown
  | fetch {m : Machine} : Reachable m → Reachable m.fetch.1
  | execute {m : Machine} (i : Instruction) : Reachable m → Reachable (m.execute i)
  | step {m : Machine} : Reachable m → Reachable m.step.1
  | run {m : Machine} (n : Nat) : Reachable m → Reachable (m.run n).1
  | tick {m : Machine} : Reachable m → Reachable m.tick.1

variable {m}

theorem pointer_execute_lt (h : m.stack.pointer.toNat < 16) (i : Instruction) :
    (m.execute i).stack.pointer.toNat < 16 := by
  by_cases hcall : i.kind = .call
  · cases i with
    | call target => exact CallStack.pointer_push_lt _ _
    | _ => exact Kind.noConfusion hcall
  · by_cases hret : i.kind = .ret
    · cases i with
      | ret => exact CallStack.pointer_pop_lt _
      | _ => exact Kind.noConfusion hret
    · rw [m.stack_execute i hcall hret]
      exact h

theorem Reachable.pointer_lt (h : m.Reachable) : m.stack.pointer.toNat < 16 := by
  induction h with
  | fresh random coupled =>
    change (0 : UInt8).toNat < 16
    decide
  | setKey key pressed _ hset ih =>
    unfold Machine.setKey at hset
    cases hkey : Keypad.keyOf key with
    | error fault => simp [hkey, Except.map] at hset
    | ok k =>
      rw [hkey] at hset
      cases hset
      exact ih
  | setKeys flags _ hset ih =>
    unfold Machine.setKeys at hset
    cases hkeys : Keypad.ofFlags flags with
    | error fault => simp [hkeys, Except.map] at hset
    | ok keypad =>
      rw [hkeys] at hset
      cases hset
      exact ih
  | load | markShown | fetch | tick => assumption
  | execute i _ ih => exact pointer_execute_lt ih i
  | step _ ih => exact pointer_step_lt _ ih
  | run n _ ih => exact pointer_run_lt _ ih n

/-- On every machine that can be reached, and whatever the library of its arrays, each word
does what its instruction does. No number that is used is outside its array, but for those
of the pixels that are not drawn, and no cell is written twice. -/
theorem Reachable.indices_inside (h : m.Reachable) :
    m.stack.pointer.toNat < 16 ∧ ∀ lib : Indexing,
      (∀ w, (m.executeIndexed lib w).value = m.execute (Instruction.ofWord w) ∧
        ∀ a ∈ (m.executeIndexed lib w).accesses,
          a.Inside ∨ Kind.ofWord w = .draw ∧ a.PixelsInside) ∧
      (m.fetchIndexed lib).value = m.fetch ∧ ∀ a ∈ (m.fetchIndexed lib).accesses, a.Inside := by
  refine ⟨h.pointer_lt, fun lib => ⟨fun w => ?_, ?_⟩⟩
  · have hsafe := m.safe_execute lib h.pointer_lt w
    exact ⟨hsafe.value_eq, hsafe.accesses⟩
  · have hsafe := m.safe_fetch lib
    exact ⟨hsafe.value_eq, hsafe.accesses⟩

end Machine

/-- Entries that are written one after the other, those behind the end left out. -/
theorem written_foldl {α : Type} {n : Nat} (cells : Vector α n) {entries : List (Nat × α)}
    (hnodup : ((entries.map Prod.fst).filter (· < n)).Nodup) :
    Written cells entries (entries.foldl (fun c e => c.setIfInBounds e.1 e.2) cells) := by
  induction entries generalizing cells with
  | nil => exact ⟨fun _ he => absurd he List.not_mem_nil, fun _ _ _ => rfl⟩
  | cons first rest ih =>
    have hrest : ((rest.map Prod.fst).filter (· < n)).Nodup :=
      hnodup.sublist ((List.sublist_cons_self _ _).filter _)
    obtain ⟨hentry, hother⟩ := ih (cells.setIfInBounds first.1 first.2) hrest
    constructor
    · intro e he hlt
      rcases List.mem_cons.1 he with rfl | he
      · have hlater : ∀ e' ∈ rest, e'.1 ≠ e.1 := by
          intro e' he' heq
          rw [List.map_cons, List.filter_cons_of_pos (by simpa using hlt),
            List.nodup_cons] at hnodup
          apply hnodup.1
          rw [List.mem_filter]
          exact ⟨List.mem_map.2 ⟨e', he', heq⟩, by simpa using hlt⟩
        rw [List.foldl_cons, hother e.1 hlt hlater]
        exact Vector.getElem_setIfInBounds_self hlt
      · exact hentry e he hlt
    · intro i hi hne
      rw [List.foldl_cons, hother i hi fun e he => hne e (List.mem_cons_of_mem _ he)]
      exact Vector.getElem_setIfInBounds_ne hi (hne first List.mem_cons_self)

/-- The library that reads the last cell for all that are behind the end and drops what is
written there. -/
def Indexing.clamping : Indexing where
  get cells i := if h : i < _ then cells[i] else cells.back?.getD default
  set cells entries := entries.foldl (fun c e => c.setIfInBounds e.1 e.2) cells
  setKept cells entries := entries.foldl (fun c e => c.setIfInBounds e.1 e.2) cells
  get_eq cells i h := dif_pos h
  written_set cells entries _ hnodup := written_foldl cells (hnodup.filter _)
  written_setKept cells entries hnodup := written_foldl cells hnodup

/-- A return without a call takes the pointer to the last slot, where a call writes then. -/
theorem Machine.indices_inside_lastSlot :
    let m := (fresh ⟨0, 0⟩ true).execute .ret
    m.Reachable ∧ m.stack.pointer = 15 ∧
      (m.executeIndexed .clamping 0x2345).value = m.execute (.call 0x345) ∧
      (m.executeIndexed .clamping 0x2345).accesses = [.write 16 [15]] ∧
      ∀ a ∈ (m.executeIndexed .clamping 0x2345).accesses,
        a.Inside ∨ Kind.ofWord 0x2345 = .draw ∧ a.PixelsInside := by
  intro m
  have hreachable : m.Reachable := Reachable.execute .ret (Reachable.fresh ⟨0, 0⟩ true)
  obtain ⟨-, hindexed⟩ := hreachable.indices_inside
  obtain ⟨hvalue, haccesses⟩ := (hindexed .clamping).1 0x2345
  exact ⟨hreachable, rfl, hvalue, rfl, haccesses⟩

end ChipEight
