import ChipEight.Word

/-!
The stack of return addresses, a ring of sixteen slots. The pointer names the
slot of the next push and moves one slot on with each push and one slot back
with each pop, so a seventeenth nested call overwrites the oldest address and
a pop on an empty stack reads an old one.
-/

namespace ChipEight

/-- The slots of the stack and the slot that is written next. -/
structure CallStack where
  slots : Vector Word 16
  pointer : UInt8
  deriving DecidableEq

namespace CallStack

def empty : CallStack := ⟨Vector.replicate 16 0, 0⟩

/-- Puts an address into the slot of the pointer. A pointer that names no slot
loses the address. -/
def push (s : CallStack) (a : Word) : CallStack :=
  { slots := s.slots.setIfInBounds s.pointer.toNat a
    pointer := UInt8.ofNat ((s.pointer.toNat + 1) % 16) }

def top (s : CallStack) : Fin 16 := Fin.ofNat 16 (s.pointer.toNat + 15)

/-- Takes the address behind the pointer; the slot keeps it. -/
def pop (s : CallStack) : CallStack × Word :=
  ({ s with pointer := UInt8.ofNat s.top.val }, s.slots[s.top])

/-- A push fills the slot of the pointer and no other. -/
theorem get_push (s : CallStack) (a : Word) (j : Fin 16) :
    (s.push a).slots.get j = if s.pointer.toNat = j.val then a else s.slots.get j :=
  Vector.getElem_setIfInBounds j.isLt

theorem top_push (s : CallStack) (a : Word) (h : s.pointer.toNat < 16) :
    (s.push a).top.val = s.pointer.toNat := by
  simp only [top, push, Fin.val_ofNat, UInt8.toNat_ofNat']
  omega

/-- A pop gives back what was pushed last. -/
theorem pop_push (s : CallStack) (a : Word) (h : s.pointer.toNat < 16) :
    (s.push a).pop.2 = a := by
  simp only [pop, Fin.getElem_fin, top_push s a h]
  simp [push]

/-- A pop takes the pointer back to where it was before the push. -/
theorem pointer_pop_push (s : CallStack) (a : Word) (h : s.pointer.toNat < 16) :
    (s.push a).pop.1.pointer = s.pointer := by
  simp only [pop, top_push s a h]
  exact UInt8.ofNat_toNat

theorem pointer_push_lt (s : CallStack) (a : Word) : (s.push a).pointer.toNat < 16 := by
  simp only [push, UInt8.toNat_ofNat']
  omega

theorem pointer_pop_lt (s : CallStack) : s.pop.1.pointer.toNat < 16 := by
  have h := s.top.isLt
  simp only [pop, UInt8.toNat_ofNat']
  omega

end CallStack

end ChipEight
