import ChipEight.CallStack

/-!
The stack seen from its top. The ring holds sixteen addresses, the one of depth
zero being the next to be popped. A push makes room on top and forgets the deepest
address; a pop moves all others up by one. So an address survives as long as no
more than fifteen later ones lie above it.
-/

namespace ChipEight.CallStack

variable (s : CallStack)

def entry (depth : Nat) : Word := s.slots[Fin.ofNat 16 (s.pointer.toNat + 15 - depth)]

theorem pop_eq_entry : s.pop.2 = s.entry 0 := rfl

theorem pointer_push (a : Word) : (s.push a).pointer.toNat = (s.pointer.toNat + 1) % 16 := by
  simp only [push, UInt8.toNat_ofNat']
  omega

theorem pointer_pop : s.pop.1.pointer.toNat = (s.pointer.toNat + 15) % 16 := by
  simp only [pop, top, UInt8.toNat_ofNat', Fin.val_ofNat]
  omega

theorem entry_push_zero (a : Word) (h : s.pointer.toNat < 16) : (s.push a).entry 0 = a :=
  s.pop_push a h

/-- A push moves every address down by one, but the deepest is lost. -/
theorem entry_push_succ (a : Word) (h : s.pointer.toNat < 16) (depth : Nat) (hdepth : depth < 15) :
    (s.push a).entry (depth + 1) = s.entry depth := by
  have hslot : ((s.pointer.toNat + 1) % 16 + 15 - (depth + 1)) % 16
      = (s.pointer.toNat + 15 - depth) % 16 := by omega
  have hother : s.pointer.toNat ≠ (s.pointer.toNat + 15 - depth) % 16 := by omega
  simp only [entry, pointer_push, Fin.getElem_fin, Fin.val_ofNat, hslot]
  simp only [push, Vector.getElem_setIfInBounds, hother, if_false]

/-- A pop moves every address but the top up by one. -/
theorem entry_pop (depth : Nat) (hdepth : depth < 15) :
    s.pop.1.entry depth = s.entry (depth + 1) := by
  have hslot : ((s.pointer.toNat + 15) % 16 + 15 - depth) % 16
      = (s.pointer.toNat + 15 - (depth + 1)) % 16 := by omega
  simp only [entry, pointer_pop, Fin.getElem_fin, Fin.val_ofNat, hslot]
  rfl

/-- The address that a pop takes off the top stays in its slot, now the deepest. -/
theorem entry_pop_deepest : s.pop.1.entry 15 = s.entry 0 := by
  have hslot : ((s.pointer.toNat + 15) % 16 + 15 - 15) % 16
      = (s.pointer.toNat + 15 - 0) % 16 := by omega
  simp only [entry, pointer_pop, Fin.getElem_fin, Fin.val_ofNat, hslot]
  rfl

/-- Each slot is at some depth. -/
theorem slot_eq_entry (j : Nat) (hj : j < 16) :
    s.slots[j] = s.entry ((s.pointer.toNat + 15 - j) % 16) := by
  have hslot : (s.pointer.toNat + 15 - (s.pointer.toNat + 15 - j) % 16) % 16 = j := by omega
  simp only [entry, Fin.getElem_fin, Fin.val_ofNat, hslot]

end ChipEight.CallStack
