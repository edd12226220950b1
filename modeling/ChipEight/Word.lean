/-!
A 16-bit word and the fields that an instruction reads from it. The four
nibbles are `opcode`, `x`, `y` and `n` from the top; `nn` is the low byte and
`nnn` the low twelve bits. Larger integers name the word of their low 16 bits.
-/

namespace ChipEight

/-- Two bytes of memory read as one number, the first byte the high one. -/
abbrev Word := UInt16

abbrev Register := Fin 16

instance neZero_sixteen : @NeZero Nat Zero.ofOfNat0 16 := Nat.instNeZeroSucc

namespace Word

def opcode (w : Word) : Fin 16 := Fin.ofNat 16 (w.toNat / 4096)

def x (w : Word) : Register := Fin.ofNat 16 (w.toNat / 256)

def y (w : Word) : Register := Fin.ofNat 16 (w.toNat / 16)

def n (w : Word) : Fin 16 := Fin.ofNat 16 w.toNat

def nn (w : Word) : UInt8 := w.toUInt8

def nnn (w : Word) : Word := UInt16.ofNat (w.toNat % 4096)

/-- The word that the low 16 bits of an integer spell in two's complement.
Integers that need more than 32 bits name no word. -/
def ofInt? (i : Int) : Option Word :=
  if -2147483648 ≤ i ∧ i ≤ 2147483647 then some (UInt16.ofInt i) else none

def ofBytes (high low : UInt8) : Word :=
  UInt16.ofNat (256 * high.toNat + low.toNat)

end Word

end ChipEight
