import ChipEight.Instruction
import ChipEight.Text.Hex

/-!
Instructions as assembly text. Registers are written `V0` to `VF`, addresses
with three digits, bytes with two and sprite heights with one, all in base
sixteen. A word of no known kind is written as data, with every digit of the
integer that was given for it.
-/

namespace ChipEight.Instruction

open Text

def register (r : Register) : String := "V" ++ hex 1 r.val

def address (a : Word) : String := hex 3 a.toNat

def byte (b : UInt8) : String := hex 2 b.toNat

def joinLine (mnemonic : String) : List String → String
  | [] => mnemonic
  | operands => mnemonic ++ " " ++ String.intercalate ", " operands

def parts : Instruction → String × List String
  | clear => ("CLS", [])
  | ret => ("RET", [])
  | jump a => ("JP", [address a])
  | call a => ("CALL", [address a])
  | skipEqualByte x b => ("SE", [register x, byte b])
  | skipUnequalByte x b => ("SNE", [register x, byte b])
  | skipEqual x y => ("SE", [register x, register y])
  | setByte x b => ("LD", [register x, byte b])
  | addByte x b => ("ADD", [register x, byte b])
  | copy x y => ("LD", [register x, register y])
  | or x y => ("OR", [register x, register y])
  | and x y => ("AND", [register x, register y])
  | xor x y => ("XOR", [register x, register y])
  | add x y => ("ADD", [register x, register y])
  | subtract x y => ("SUB", [register x, register y])
  | shiftRight x => ("SHR", [register x])
  | subtractFrom x y => ("SUBN", [register x, register y])
  | shiftLeft x => ("SHL", [register x])
  | skipUnequal x y => ("SNE", [register x, register y])
  | setIndex a => ("LD", ["I", address a])
  | jumpOffset a => ("JP", ["V0", address a])
  | random x b => ("RND", [register x, byte b])
  | draw x y n => ("DRW", [register x, register y, hex 1 n.val])
  | skipPressed x => ("SKP", [register x])
  | skipReleased x => ("SKNP", [register x])
  | readDelay x => ("LD", [register x, "DT"])
  | awaitKey x => ("LD", [register x, "K"])
  | setDelay x => ("LD", ["DT", register x])
  | setSound x => ("LD", ["ST", register x])
  | addIndex x => ("ADD", ["I", register x])
  | pointGlyph x => ("LD", ["F", register x])
  | storeDecimal x => ("LD", ["B", register x])
  | storeRegisters x => ("LD", ["[I]", register x])
  | loadRegisters x => ("LD", [register x, "[I]"])
  | unknown w => ("DW", [hex 4 w.toNat])

def assembly (i : Instruction) : String := joinLine i.parts.1 i.parts.2

/-- The assembly text of the word that an integer names, none if it names no
word. An unknown word shows the integer itself, sign and all digits. -/
def disassemble? (i : Int) : Option String :=
  (Word.ofInt? i).map fun w =>
    match ofWord w with
    | unknown _ => joinLine "DW" [hexSigned 4 i]
    | instruction => instruction.assembly

end ChipEight.Instruction
