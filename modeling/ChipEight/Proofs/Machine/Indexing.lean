import ChipEight.Machine.Step
import Mathlib.Data.List.Nodup
import Mathlib.Data.List.ProdSigma

/-!
The instructions over arrays that never fault. Every cell is named by a number that is
computed with masks and remainders, and what is read or written at a number that is no
position of its array, or written twice, is up to the library of the arrays. Here the
instructions are carried out over any such library, with a record of the numbers.
-/

namespace ChipEight

/-- A read or a write of an array, by the number of its cells and by the positions. -/
inductive Access where
  | read (size position : Nat)
  | write (size : Nat) (positions : List Nat)
  /-- A write that drops what is behind the end of the array. -/
  | writeKept (size : Nat) (positions : List Nat)
  deriving DecidableEq, Repr

/-- Every position is one of the array, and none is written twice. -/
def Access.Inside : Access → Prop
  | read size position => position < size
  | write size positions => (∀ p ∈ positions, p < size) ∧ positions.Nodup
  | writeKept _ _ => False

/-- A write of pixels. What is not drawn is sent to the number behind the last pixel, and
of the others none is written twice. -/
def Access.PixelsInside : Access → Prop
  | writeKept size positions =>
    size = 2048 ∧ (∀ p ∈ positions, p < 2048 ∨ p = 2048) ∧ (positions.filter (· < 2048)).Nodup
  | _ => False

/-- A result together with the accesses that were made for it. -/
structure Recorded (α : Type) where
  value : α
  accesses : List Access

instance : Monad Recorded where
  pure a := ⟨a, []⟩
  bind c f := ⟨(f c.value).value, c.accesses ++ (f c.value).accesses⟩

/-- What a write leaves: the entries at their positions, and the rest as it was. -/
structure Written {α : Type} {n : Nat} (cells : Vector α n) (entries : List (Nat × α))
    (after : Vector α n) : Prop where
  entry : ∀ e ∈ entries, ∀ h : e.1 < n, after[e.1] = e.2
  other : ∀ (i : Nat) (h : i < n), (∀ e ∈ entries, e.1 ≠ i) → after[i] = cells[i]

/-- A library of arrays. Nothing is known of a read outside an array, nor of a write unless
its positions are different and inside, or those behind the end are to be dropped. -/
structure Indexing where
  get {α : Type} [Inhabited α] {n : Nat} (cells : Vector α n) (i : Nat) : α
  set {α : Type} {n : Nat} (cells : Vector α n) (entries : List (Nat × α)) : Vector α n
  setKept {α : Type} {n : Nat} (cells : Vector α n) (entries : List (Nat × α)) : Vector α n
  get_eq {α : Type} [Inhabited α] {n : Nat} (cells : Vector α n) (i : Nat) (h : i < n) :
    get cells i = cells[i]
  written_set {α : Type} {n : Nat} (cells : Vector α n) (entries : List (Nat × α))
    (hinside : ∀ p ∈ entries.map Prod.fst, p < n) (hnodup : (entries.map Prod.fst).Nodup) :
    Written cells entries (set cells entries)
  written_setKept {α : Type} {n : Nat} (cells : Vector α n) (entries : List (Nat × α))
    (hnodup : ((entries.map Prod.fst).filter (· < n)).Nodup) :
    Written cells entries (setKept cells entries)

namespace Indexing

variable (lib : Indexing) {α : Type} {n : Nat}

def read [Inhabited α] (cells : Vector α n) (i : Nat) : Recorded α :=
  ⟨lib.get cells i, [.read n i]⟩

def gather [Inhabited α] {count : Nat} (cells : Vector α n) (positions : Fin count → Nat) :
    Recorded (Fin count → α) :=
  ⟨fun j => lib.get cells (positions j),
    (List.finRange count).map fun j => .read n (positions j)⟩

def write (cells : Vector α n) (entries : List (Nat × α)) : Recorded (Vector α n) :=
  ⟨lib.set cells entries, [.write n (entries.map Prod.fst)]⟩

def writeKept (cells : Vector α n) (entries : List (Nat × α)) : Recorded (Vector α n) :=
  ⟨lib.setKept cells entries, [.writeKept n (entries.map Prod.fst)]⟩

end Indexing

def placed (a : Nat) (bytes : List UInt8) : List (Nat × UInt8) :=
  bytes.zipIdx.map fun e => ((a + e.2) &&& 0xFFF, e.1)

namespace Machine

variable (lib : Indexing) (m : Machine)

def readReg (i : Nat) : Recorded UInt8 := lib.read m.registers i

def writeReg (i : Nat) (b : UInt8) : Recorded Machine := do
  let registers ← lib.write m.registers [(i, b)]
  return { m with registers }

def keyAt (i : Nat) : Recorded Bool := do
  let vx ← m.readReg lib i
  lib.read m.keypad.keys (vx.toNat &&& 0xF)

def combine (result : UInt8 → UInt8 → UInt8) (x y : Nat) : Recorded Machine := do
  let vx ← m.readReg lib x
  let vy ← m.readReg lib y
  m.writeReg lib x (result vx vy)

def combineFlag (result : UInt8 → UInt8 → UInt8) (on : UInt8 → UInt8 → Bool) (x y : Nat) :
    Recorded Machine := do
  let vx ← m.readReg lib x
  let vy ← m.readReg lib y
  let after ← m.writeReg lib x (result vx vy)
  after.writeReg lib 0xF (if on vx vy then 1 else 0)

def skipComparing (holds : UInt8 → UInt8 → Bool) (x y : Nat) : Recorded Machine := do
  let vx ← m.readReg lib x
  let vy ← m.readReg lib y
  return m.skipIf (holds vx vy)

def enterIndexed (target : Word) : Recorded Machine := do
  let slots ← lib.write m.stack.slots [(m.stack.pointer.toNat, m.pc)]
  let pointer := UInt8.ofNat ((m.stack.pointer.toNat + 1) % 16)
  return { m with stack := { slots, pointer }, pc := target }

def leaveIndexed : Recorded Machine := do
  let pointer := (m.stack.pointer.toNat + 16 - 1) % 16
  let address ← lib.read m.stack.slots pointer
  return { m with stack := { m.stack with pointer := UInt8.ofNat pointer }, pc := address }

/-- The position of a pixel of a sprite, or the number behind the last pixel if it is not
drawn. -/
def spritePosition (rows : Fin 16 → UInt8) (height vx vy : Nat) (bit : Fin 16 × Fin 8) : Nat :=
  let position := vx + bit.2.val + (vy + bit.1.val) * 64
  if bit.1.val < height ∧ (rows bit.1).toNat.testBit (7 - bit.2.val) ∧ position < 2048 then
    position
  else 2048

def spritePositions (rows : Fin 16 → UInt8) (height vx vy : Nat) : List Nat :=
  (List.finRange 16 ×ˢ List.finRange 8).map (spritePosition rows height vx vy)

def drawIndexed (x y height : Nat) : Recorded Machine := do
  let vx ← m.readReg lib x
  let vy ← m.readReg lib y
  let rows ← lib.gather m.memory.cells fun row : Fin 16 => (m.index.toNat + row.val) &&& 0xFFF
  let lit := (spritePositions rows height vx.toNat vy.toNat).map fun p => (p, true)
  let mask ← lib.writeKept (Vector.replicate (64 * 32) false) lit
  let after ← m.writeReg lib 0xF (if m.screen.meets ⟨mask⟩ then 1 else 0)
  return { after with screen := m.screen.xor ⟨mask⟩, dirty := true }

/-- Writes the register also while the machine waits, with the value that it has. -/
def awaitKeyIndexed (x : Nat) : Recorded Machine := do
  let vx ← m.readReg lib x
  match m.keypad.lowest? with
  | some k => m.writeReg lib x (UInt8.ofNat k.val)
  | none =>
    let after ← m.writeReg lib x vx
    return { after with pc := m.pc - 2 }

def addIndexIndexed (x : Nat) : Recorded Machine := do
  let vx ← m.readReg lib x
  let sum := m.index.toNat + vx.toNat
  let after ← m.writeReg lib 0xF (if 0xFFF < sum then 1 else 0)
  return { after with index := UInt16.ofNat sum }

def storeDecimalIndexed (x : Nat) : Recorded Machine := do
  let vx ← m.readReg lib x
  let cells ← lib.write m.memory.cells (placed m.index.toNat (decimalDigits vx))
  return { m with memory := ⟨cells⟩ }

/-- Reads the sixteen cells from the index on and writes them all, those of the registers
behind `last` as they were. -/
def storeRegistersIndexed (last : Nat) : Recorded Machine := do
  let old ← lib.gather m.memory.cells fun r : Fin 16 => (m.index.toNat + r.val) &&& 0xFFF
  let bytes := List.ofFn fun r : Fin 16 => if r.val ≤ last then m.reg r else old r
  let cells ← lib.write m.memory.cells (placed m.index.toNat bytes)
  return { m with memory := ⟨cells⟩, index := UInt16.ofNat (m.index.toNat + last + 1) }

def loadRegistersIndexed (last : Nat) : Recorded Machine := do
  let loaded ← lib.gather m.memory.cells fun r : Fin 16 => (m.index.toNat + r.val) &&& 0xFFF
  return { m with
    registers := Vector.ofFn fun r => if r.val ≤ last then loaded r else m.reg r
    index := UInt16.ofNat (m.index.toNat + last + 1) }

def executeIndexed (w : Word) : Recorded Machine :=
  let x := (w.toNat &&& 0x0F00) >>> 8
  let y := (w.toNat &&& 0x00F0) >>> 4
  let n := w.toNat &&& 0x000F
  match Kind.ofWord w with
  | .clear => return { m with screen := Bitmap.blank, dirty := true }
  | .ret => m.leaveIndexed lib
  | .jump => return { m with pc := Word.nnn w }
  | .call => m.enterIndexed lib (Word.nnn w)
  | .skipEqualByte => return m.skipIf ((← m.readReg lib x) == Word.nn w)
  | .skipUnequalByte => return m.skipIf ((← m.readReg lib x) != Word.nn w)
  | .skipEqual => m.skipComparing lib (· == ·) x y
  | .setByte => m.writeReg lib x (Word.nn w)
  | .addByte => do m.writeReg lib x ((← m.readReg lib x) + Word.nn w)
  | .copy => m.combine lib (fun _ vy => vy) x y
  | .or => m.combine lib (· ||| ·) x y
  | .and => m.combine lib (· &&& ·) x y
  | .xor => m.combine lib (· ^^^ ·) x y
  | .add => m.combineFlag lib (· + ·) (fun vx vy => 0xFF < vx.toNat + vy.toNat) x y
  | .subtract => m.combineFlag lib (· - ·) (fun vx vy => vy ≤ vx) x y
  | .shiftRight => m.combineFlag lib (fun vx _ => vx >>> 1) (fun vx _ => vx &&& 1 == 1) x y
  | .subtractFrom => m.combineFlag lib (fun vx vy => vy - vx) (fun vx vy => vx ≤ vy) x y
  | .shiftLeft => m.combineFlag lib (fun vx _ => vx <<< 1) (fun vx _ => vx >>> 7 == 1) x y
  | .skipUnequal => m.skipComparing lib (· != ·) x y
  | .setIndex => return { m with index := Word.nnn w }
  | .jumpOffset => return { m with pc := Word.nnn w + (← m.readReg lib 0).toUInt16 }
  | .random => do
    let after ← m.writeReg lib x (m.random.byte &&& Word.nn w)
    return { after with random := m.random.next }
  | .draw => m.drawIndexed lib x y n
  | .skipPressed => return m.skipIf (← m.keyAt lib x)
  | .skipReleased => return m.skipIf (!(← m.keyAt lib x))
  | .readDelay => m.writeReg lib x m.delay
  | .awaitKey => m.awaitKeyIndexed lib x
  | .setDelay => return { m with delay := ← m.readReg lib x }
  | .setSound => return { m with sound := ← m.readReg lib x }
  | .addIndex => m.addIndexIndexed lib x
  | .pointGlyph => return { m with index := UInt16.ofNat (5 * (← m.readReg lib x).toNat) }
  | .storeDecimal => m.storeDecimalIndexed lib x
  | .storeRegisters => m.storeRegistersIndexed lib x
  | .loadRegisters => m.loadRegistersIndexed lib x
  | .unknown => return m

def fetchIndexed : Recorded (Machine × Word) := do
  let address := m.pc.toNat &&& 0xFFF
  let high ← lib.read m.memory.cells address
  let low ← lib.read m.memory.cells ((address + 1) &&& 0xFFF)
  return ({ m with pc := m.pc + 2 }, Word.ofBytes high low)

end Machine

end ChipEight
