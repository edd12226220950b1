import ChipEight.Instruction.Kind

/-!
Instructions with their operands, and the instruction that a word stands for.
Shifts carry one register, for their second operand field is not read. A word
of no known kind stands for `unknown` and is kept whole.
-/

namespace ChipEight

/-- An instruction together with the operands that it uses. -/
inductive Instruction where
  | clear
  | ret
  | jump (target : Word)
  | call (target : Word)
  | skipEqualByte (x : Register) (byte : UInt8)
  | skipUnequalByte (x : Register) (byte : UInt8)
  | skipEqual (x y : Register)
  | setByte (x : Register) (byte : UInt8)
  | addByte (x : Register) (byte : UInt8)
  | copy (x y : Register)
  | or (x y : Register)
  | and (x y : Register)
  | xor (x y : Register)
  | add (x y : Register)
  | subtract (x y : Register)
  | shiftRight (x : Register)
  | subtractFrom (x y : Register)
  | shiftLeft (x : Register)
  | skipUnequal (x y : Register)
  | setIndex (address : Word)
  | jumpOffset (base : Word)
  | random (x : Register) (mask : UInt8)
  | draw (x y : Register) (height : Fin 16)
  | skipPressed (x : Register)
  | skipReleased (x : Register)
  | readDelay (x : Register)
  | awaitKey (x : Register)
  | setDelay (x : Register)
  | setSound (x : Register)
  | addIndex (x : Register)
  | pointGlyph (x : Register)
  | storeDecimal (x : Register)
  | storeRegisters (last : Register)
  | loadRegisters (last : Register)
  | unknown (word : Word)
  deriving DecidableEq, Repr

namespace Instruction

def ofWord (w : Word) : Instruction :=
  match Kind.ofWord w with
  | .clear => clear
  | .ret => ret
  | .jump => jump (Word.nnn w)
  | .call => call (Word.nnn w)
  | .skipEqualByte => skipEqualByte (Word.x w) (Word.nn w)
  | .skipUnequalByte => skipUnequalByte (Word.x w) (Word.nn w)
  | .skipEqual => skipEqual (Word.x w) (Word.y w)
  | .setByte => setByte (Word.x w) (Word.nn w)
  | .addByte => addByte (Word.x w) (Word.nn w)
  | .copy => copy (Word.x w) (Word.y w)
  | .or => or (Word.x w) (Word.y w)
  | .and => and (Word.x w) (Word.y w)
  | .xor => xor (Word.x w) (Word.y w)
  | .add => add (Word.x w) (Word.y w)
  | .subtract => subtract (Word.x w) (Word.y w)
  | .shiftRight => shiftRight (Word.x w)
  | .subtractFrom => subtractFrom (Word.x w) (Word.y w)
  | .shiftLeft => shiftLeft (Word.x w)
  | .skipUnequal => skipUnequal (Word.x w) (Word.y w)
  | .setIndex => setIndex (Word.nnn w)
  | .jumpOffset => jumpOffset (Word.nnn w)
  | .random => random (Word.x w) (Word.nn w)
  | .draw => draw (Word.x w) (Word.y w) (Word.n w)
  | .skipPressed => skipPressed (Word.x w)
  | .skipReleased => skipReleased (Word.x w)
  | .readDelay => readDelay (Word.x w)
  | .awaitKey => awaitKey (Word.x w)
  | .setDelay => setDelay (Word.x w)
  | .setSound => setSound (Word.x w)
  | .addIndex => addIndex (Word.x w)
  | .pointGlyph => pointGlyph (Word.x w)
  | .storeDecimal => storeDecimal (Word.x w)
  | .storeRegisters => storeRegisters (Word.x w)
  | .loadRegisters => loadRegisters (Word.x w)
  | .unknown => unknown w

def kind : Instruction → Kind
  | clear => .clear
  | ret => .ret
  | jump _ => .jump
  | call _ => .call
  | skipEqualByte _ _ => .skipEqualByte
  | skipUnequalByte _ _ => .skipUnequalByte
  | skipEqual _ _ => .skipEqual
  | setByte _ _ => .setByte
  | addByte _ _ => .addByte
  | copy _ _ => .copy
  | or _ _ => .or
  | and _ _ => .and
  | xor _ _ => .xor
  | add _ _ => .add
  | subtract _ _ => .subtract
  | shiftRight _ => .shiftRight
  | subtractFrom _ _ => .subtractFrom
  | shiftLeft _ => .shiftLeft
  | skipUnequal _ _ => .skipUnequal
  | setIndex _ => .setIndex
  | jumpOffset _ => .jumpOffset
  | random _ _ => .random
  | draw _ _ _ => .draw
  | skipPressed _ => .skipPressed
  | skipReleased _ => .skipReleased
  | readDelay _ => .readDelay
  | awaitKey _ => .awaitKey
  | setDelay _ => .setDelay
  | setSound _ => .setSound
  | addIndex _ => .addIndex
  | pointGlyph _ => .pointGlyph
  | storeDecimal _ => .storeDecimal
  | storeRegisters _ => .storeRegisters
  | loadRegisters _ => .loadRegisters
  | unknown _ => .unknown

/-- Reading a word keeps its kind. -/
theorem kind_ofWord (w : Word) : (ofWord w).kind = Kind.ofWord w := by
  unfold ofWord
  split <;> simp_all [kind]

end Instruction

end ChipEight
