import ChipEight.Word

/-!
The kinds of instructions and the patterns that tell them apart. A pattern
names the bits that matter and the values they must have. The table gives one
pattern for each kind but `unknown`; a word belongs to the first kind whose
pattern accepts it, and no word is accepted twice.
-/

namespace ChipEight

/-- What an instruction does, without its operands. -/
inductive Kind where
  | clear | ret | jump | call
  | skipEqualByte | skipUnequalByte | skipEqual
  | setByte | addByte
  | copy | or | and | xor | add | subtract | shiftRight | subtractFrom | shiftLeft
  | skipUnequal
  | setIndex | jumpOffset | random | draw
  | skipPressed | skipReleased
  | readDelay | awaitKey | setDelay | setSound
  | addIndex | pointGlyph | storeDecimal | storeRegisters | loadRegisters
  | unknown
  deriving DecidableEq, Repr

/-- The bits of a word that matter and the values that they must have. -/
structure Pattern where
  mask : Word
  bits : Word
  deriving DecidableEq, Repr

def Pattern.Accepts (p : Pattern) (w : Word) : Prop := w &&& p.mask = p.bits

instance (p : Pattern) (w : Word) : Decidable (p.Accepts w) :=
  inferInstanceAs (Decidable (_ = _))

namespace Kind

def table : List (Kind × Pattern) :=
  [(clear,           ⟨0xFFFF, 0x00E0⟩),
   (ret,             ⟨0xFFFF, 0x00EE⟩),
   (jump,            ⟨0xF000, 0x1000⟩),
   (call,            ⟨0xF000, 0x2000⟩),
   (skipEqualByte,   ⟨0xF000, 0x3000⟩),
   (skipUnequalByte, ⟨0xF000, 0x4000⟩),
   (skipEqual,       ⟨0xF00F, 0x5000⟩),
   (setByte,         ⟨0xF000, 0x6000⟩),
   (addByte,         ⟨0xF000, 0x7000⟩),
   (copy,            ⟨0xF00F, 0x8000⟩),
   (or,              ⟨0xF00F, 0x8001⟩),
   (and,             ⟨0xF00F, 0x8002⟩),
   (xor,             ⟨0xF00F, 0x8003⟩),
   (add,             ⟨0xF00F, 0x8004⟩),
   (subtract,        ⟨0xF00F, 0x8005⟩),
   (shiftRight,      ⟨0xF00F, 0x8006⟩),
   (subtractFrom,    ⟨0xF00F, 0x8007⟩),
   (shiftLeft,       ⟨0xF00F, 0x800E⟩),
   (skipUnequal,     ⟨0xF00F, 0x9000⟩),
   (setIndex,        ⟨0xF000, 0xA000⟩),
   (jumpOffset,      ⟨0xF000, 0xB000⟩),
   (random,          ⟨0xF000, 0xC000⟩),
   (draw,            ⟨0xF000, 0xD000⟩),
   (skipPressed,     ⟨0xF0FF, 0xE09E⟩),
   (skipReleased,    ⟨0xF0FF, 0xE0A1⟩),
   (readDelay,       ⟨0xF0FF, 0xF007⟩),
   (awaitKey,        ⟨0xF0FF, 0xF00A⟩),
   (setDelay,        ⟨0xF0FF, 0xF015⟩),
   (setSound,        ⟨0xF0FF, 0xF018⟩),
   (addIndex,        ⟨0xF0FF, 0xF01E⟩),
   (pointGlyph,      ⟨0xF0FF, 0xF029⟩),
   (storeDecimal,    ⟨0xF0FF, 0xF033⟩),
   (storeRegisters,  ⟨0xF0FF, 0xF055⟩),
   (loadRegisters,   ⟨0xF0FF, 0xF065⟩)]

/-- The kind of the first row whose pattern accepts the word, `unknown` if
there is none. -/
def ofWord (w : Word) : Kind :=
  match table.find? (fun row => row.2.Accepts w) with
  | some row => row.1
  | none => unknown

end Kind

end ChipEight
