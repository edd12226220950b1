import ChipEight.Fault
import ChipEight.Word

/-!
The sixteen keys and which of them are held down. Keys are addressed by
integers from the host, and every other integer is refused.
-/

namespace ChipEight

/-- For each key, whether it is held down. -/
structure Keypad where
  keys : Vector Bool 16
  deriving DecidableEq

namespace Keypad

def released : Keypad := ⟨Vector.replicate 16 false⟩

def isPressed (p : Keypad) (k : Fin 16) : Bool := p.keys[k]

def anyPressed (p : Keypad) : Bool := p.keys.any id

def lowest? (p : Keypad) : Option (Fin 16) := (List.finRange 16).find? p.isPressed

def put (p : Keypad) (k : Fin 16) (pressed : Bool) : Keypad := ⟨p.keys.set k pressed⟩

theorem isPressed_put (p : Keypad) (k j : Fin 16) (pressed : Bool) :
    (p.put k pressed).isPressed j = if j = k then pressed else p.isPressed j := by
  simp [isPressed, put, Vector.getElem_set, Fin.ext_iff, eq_comm]

theorem anyPressed_eq_true_iff (p : Keypad) :
    p.anyPressed = true ↔ ∃ k, p.isPressed k = true := by
  simp [anyPressed, isPressed, Vector.any_eq_true, Fin.exists_iff]

/-- There is a first key exactly if some key is held down. -/
theorem lowest?_eq_none_iff (p : Keypad) : p.lowest? = none ↔ p.anyPressed = false := by
  simp [lowest?, List.find?_eq_none, ← Bool.not_eq_true, anyPressed_eq_true_iff]

def keyOf (i : Int) : Except Fault (Fin 16) :=
  if 0 ≤ i ∧ i < 16 then .ok (Fin.ofNat 16 i.toNat) else .error (.keyOutOfRange i)

def ofFlags (flags : List Bool) : Except Fault Keypad :=
  if h : flags.length = 16 then .ok ⟨⟨flags.toArray, by simpa using h⟩⟩
  else .error (.keyCount flags.length)

end Keypad

end ChipEight
