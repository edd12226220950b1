import ChipEight.Fault
import ChipEight.Memory

/-!
Programs. A program is a list of bytes that fits between its origin, address
0x200, and the end of the memory, and it is put there when it is loaded. Its
size is judged before its bytes.
-/

namespace ChipEight

def Program.origin : Nat := 0x200

def Program.capacity : Nat := 4096 - Program.origin

/-- Bytes that fit into memory from the origin on. -/
structure Program where
  bytes : List UInt8
  fits : bytes.length ≤ Program.capacity

namespace Program

def size (p : Program) : Nat := p.bytes.length

def ofBytes (bytes : List UInt8) : Except Fault Program :=
  if fits : bytes.length ≤ capacity then .ok ⟨bytes, fits⟩
  else .error (.programTooLarge bytes.length capacity)

def byteOfNumber (i : Int) : Except Fault UInt8 :=
  if 0 ≤ i ∧ i ≤ 255 then .ok (UInt8.ofNat i.toNat) else .error (.byteOutOfRange i)

def ofNumbers (numbers : List Int) : Except Fault Program :=
  if numbers.length ≤ capacity then
    match numbers.mapM byteOfNumber with
    | .ok bytes => ofBytes bytes
    | .error fault => .error fault
  else .error (.programTooLarge numbers.length capacity)

def install (p : Program) (m : Memory) : Memory := m.writeBytes origin p.bytes

end Program

end ChipEight
