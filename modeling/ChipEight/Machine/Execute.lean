import ChipEight.Instruction
import ChipEight.Machine

/-!
What each instruction does to a machine whose program counter already points
behind it. Operands are read before anything is written, and an instruction
that reports a flag writes register F after its result. Addresses into memory
count by their low twelve bits, while the program counter and the index keep
all sixteen.
-/

namespace ChipEight.Machine

def flag : Register := 15

def reg (m : Machine) (r : Register) : UInt8 := m.registers[r]

def setReg (m : Machine) (r : Register) (b : UInt8) : Machine :=
  { m with registers := m.registers.set r b }

/-- Writes a result and then the flag, which stays if both go to register F. -/
def setRegFlag (m : Machine) (r : Register) (result : UInt8) (on : Bool) : Machine :=
  (m.setReg r result).setReg flag (if on then 1 else 0)

def skipIf (m : Machine) (condition : Bool) : Machine :=
  if condition then { m with pc := m.pc + 2 } else m

def enter (m : Machine) (target : Word) : Machine :=
  { m with stack := m.stack.push m.pc, pc := target }

def leave (m : Machine) : Machine :=
  { m with stack := m.stack.pop.1, pc := m.stack.pop.2 }

def drawRandom (m : Machine) (x : Register) (mask : UInt8) : Machine :=
  { m.setReg x (m.random.byte &&& mask) with random := m.random.next }

def spriteStart (m : Machine) (x y : Register) : Nat :=
  (m.reg x).toNat + 64 * (m.reg y).toNat

def spriteRows (m : Machine) (height : Fin 16) : List UInt8 :=
  m.memory.readBytes m.index.toNat height.val

def drawSprite (m : Machine) (x y : Register) (height : Fin 16) : Machine :=
  let mask := Sprite.mask (m.spriteRows height) (m.spriteStart x y)
  { m.setReg flag (if m.screen.meets mask then 1 else 0) with
    screen := m.screen.xor mask, dirty := true }

/-- Whether the key is held down that the low nibble of a register names. -/
def keyInReg (m : Machine) (x : Register) : Bool :=
  m.keypad.isPressed (Fin.ofNat 16 (m.reg x).toNat)

/-- Reads the first key that is held down, or stays on this instruction. -/
def awaitKey (m : Machine) (x : Register) : Machine :=
  match m.keypad.lowest? with
  | some k => m.setReg x (UInt8.ofNat k.val)
  | none => { m with pc := m.pc - 2 }

/-- Adds a register to the index. The flag tells whether the sum left the
twelve bits of an address. -/
def addIndex (m : Machine) (x : Register) : Machine :=
  let sum := m.index.toNat + (m.reg x).toNat
  { m.setReg flag (if 0xFFF < sum then 1 else 0) with index := UInt16.ofNat sum }

def decimalDigits (b : UInt8) : List UInt8 :=
  [UInt8.ofNat (b.toNat / 100), UInt8.ofNat (b.toNat / 10 % 10), UInt8.ofNat (b.toNat % 10)]

def storeDecimal (m : Machine) (x : Register) : Machine :=
  { m with memory := m.memory.writeBytes m.index.toNat (decimalDigits (m.reg x)) }

def indexBehind (m : Machine) (last : Register) : Word :=
  UInt16.ofNat (m.index.toNat + last.val + 1)

def storeRegisters (m : Machine) (last : Register) : Machine :=
  { m with
    memory := m.memory.writeBytes m.index.toNat (m.registers.toList.take (last.val + 1))
    index := m.indexBehind last }

def loadRegisters (m : Machine) (last : Register) : Machine :=
  { m with
    registers := Vector.ofFn fun r =>
      if r.val ≤ last.val then m.memory.read (m.index.toNat + r.val) else m.reg r
    index := m.indexBehind last }

def execute (m : Machine) : Instruction → Machine
  | .clear => { m with screen := Bitmap.blank, dirty := true }
  | .ret => m.leave
  | .jump target => { m with pc := target }
  | .call target => m.enter target
  | .skipEqualByte x byte => m.skipIf (m.reg x == byte)
  | .skipUnequalByte x byte => m.skipIf (m.reg x != byte)
  | .skipEqual x y => m.skipIf (m.reg x == m.reg y)
  | .setByte x byte => m.setReg x byte
  | .addByte x byte => m.setReg x (m.reg x + byte)
  | .copy x y => m.setReg x (m.reg y)
  | .or x y => m.setReg x (m.reg x ||| m.reg y)
  | .and x y => m.setReg x (m.reg x &&& m.reg y)
  | .xor x y => m.setReg x (m.reg x ^^^ m.reg y)
  | .add x y =>
    m.setRegFlag x (m.reg x + m.reg y) (0xFF < (m.reg x).toNat + (m.reg y).toNat)
  | .subtract x y => m.setRegFlag x (m.reg x - m.reg y) (m.reg y ≤ m.reg x)
  | .shiftRight x => m.setRegFlag x (m.reg x >>> 1) (m.reg x &&& 1 == 1)
  | .subtractFrom x y => m.setRegFlag x (m.reg y - m.reg x) (m.reg x ≤ m.reg y)
  | .shiftLeft x => m.setRegFlag x (m.reg x <<< 1) (m.reg x >>> 7 == 1)
  | .skipUnequal x y => m.skipIf (m.reg x != m.reg y)
  | .setIndex address => { m with index := address }
  | .jumpOffset base => { m with pc := base + (m.reg 0).toUInt16 }
  | .random x mask => m.drawRandom x mask
  | .draw x y height => m.drawSprite x y height
  | .skipPressed x => m.skipIf (m.keyInReg x)
  | .skipReleased x => m.skipIf (!m.keyInReg x)
  | .readDelay x => m.setReg x m.delay
  | .awaitKey x => m.awaitKey x
  | .setDelay x => { m with delay := m.reg x }
  | .setSound x => { m with sound := m.reg x }
  | .addIndex x => m.addIndex x
  | .pointGlyph x => { m with index := UInt16.ofNat (5 * (m.reg x).toNat) }
  | .storeDecimal x => m.storeDecimal x
  | .storeRegisters last => m.storeRegisters last
  | .loadRegisters last => m.loadRegisters last
  | .unknown _ => m

end ChipEight.Machine
