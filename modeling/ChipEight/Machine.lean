import ChipEight.CallStack
import ChipEight.Keypad
import ChipEight.Program
import ChipEight.RandomKey
import ChipEight.Screen

/-!
The state of a machine, and what its host may do to it between instructions:
load a program, press and release keys, and take note that the screen was shown.
-/

namespace ChipEight

/-- Everything that an instruction can read or change, and whether the timers
count down with the instructions or wait for the host. -/
structure Machine where
  memory : Memory
  pc : Word
  screen : Screen
  dirty : Bool
  stack : CallStack
  delay : UInt8
  sound : UInt8
  keypad : Keypad
  registers : Vector UInt8 16
  index : Word
  random : RandomKey
  coupled : Bool
  deriving DecidableEq

namespace Machine

def font : List UInt8 :=
  [0xF0, 0x90, 0x90, 0x90, 0xF0,
   0x20, 0x60, 0x20, 0x20, 0x70,
   0xF0, 0x10, 0xF0, 0x80, 0xF0,
   0xF0, 0x10, 0xF0, 0x10, 0xF0,
   0x90, 0x90, 0xF0, 0x10, 0x10,
   0xF0, 0x80, 0xF0, 0x10, 0xF0,
   0xF0, 0x80, 0xF0, 0x90, 0xF0,
   0xF0, 0x10, 0x20, 0x40, 0x40,
   0xF0, 0x90, 0xF0, 0x90, 0xF0,
   0xF0, 0x90, 0xF0, 0x10, 0xF0,
   0xF0, 0x90, 0xF0, 0x90, 0x90,
   0xE0, 0x90, 0xE0, 0x90, 0xE0,
   0xF0, 0x80, 0x80, 0x80, 0xF0,
   0xE0, 0x90, 0x90, 0x90, 0xE0,
   0xF0, 0x80, 0xF0, 0x80, 0xF0,
   0xF0, 0x80, 0xF0, 0x80, 0x80]

/-- A machine that was just switched on: the font at address 0, all else zero,
the program counter at the origin and the screen still to be shown. -/
def fresh (random : RandomKey) (coupled : Bool) : Machine where
  memory := Memory.zero.writeBytes 0 font
  pc := UInt16.ofNat Program.origin
  screen := Bitmap.blank
  dirty := true
  stack := CallStack.empty
  delay := 0
  sound := 0
  keypad := Keypad.released
  registers := Vector.replicate 16 0
  index := 0
  random := random
  coupled := coupled

/-- Behind the font the memory of a fresh machine is zero. -/
theorem word_fresh (random : RandomKey) (coupled : Bool) (a : Nat) (ha : 80 ≤ a)
    (hb : a + 1 < 4096) : (fresh random coupled).memory.word a = 0 := by
  have hread (q : Nat) (hq : 80 ≤ q) (hlast : q < 4096) :
      (Memory.zero.writeBytes 0 font).read q = 0 := by
    have hfont : font.length = 80 := rfl
    rw [Memory.read_writeBytes _ _ _ _ (by omega), Memory.read_zero,
      List.getElem?_eq_none (by omega)]
    rfl
  simp only [fresh, Memory.word, hread a ha (by omega), hread (a + 1) (by omega) hb]
  rfl

def load (m : Machine) (p : Program) : Machine := { m with memory := p.install m.memory }

def setKey (m : Machine) (key : Int) (pressed : Bool) : Except Fault Machine :=
  (Keypad.keyOf key).map fun k => { m with keypad := m.keypad.put k pressed }

def setKeys (m : Machine) (flags : List Bool) : Except Fault Machine :=
  (Keypad.ofFlags flags).map fun keypad => { m with keypad := keypad }

def markShown (m : Machine) : Machine := { m with dirty := false }

end Machine

end ChipEight
