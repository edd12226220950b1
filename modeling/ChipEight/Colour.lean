import ChipEight.Fault

/-!
Colours, and the pairs of colours in which a bitmap is shown. A few pairs have
names; a name that is not among them is refused with the list of those that are.
-/

namespace ChipEight

/-- A colour by its three components. -/
structure Colour where
  red : UInt8
  green : UInt8
  blue : UInt8
  deriving DecidableEq, Repr

namespace Colour

def component (i : Int) : Except Fault UInt8 :=
  if 0 ≤ i ∧ i ≤ 255 then .ok (UInt8.ofNat i.toNat) else .error (.colourOutOfRange i)

def ofNumbers (red green blue : Int) : Except Fault Colour := do
  let r ← component red
  let g ← component green
  let b ← component blue
  return ⟨r, g, b⟩

end Colour

/-- The colours of the pixels that are on and of those that are off. -/
structure Palette where
  on : Colour
  off : Colour
  deriving DecidableEq, Repr

namespace Palette

def schemes : List (String × Palette) :=
  [("classic", ⟨⟨0, 255, 0⟩, ⟨0, 0, 0⟩⟩),
   ("amber", ⟨⟨255, 176, 0⟩, ⟨0, 0, 0⟩⟩),
   ("white", ⟨⟨255, 255, 255⟩, ⟨0, 0, 0⟩⟩),
   ("blue", ⟨⟨0, 255, 255⟩, ⟨0, 0, 64⟩⟩),
   ("retro", ⟨⟨255, 255, 0⟩, ⟨64, 0, 64⟩⟩),
   ("purple", ⟨⟨179, 102, 184⟩, ⟨45, 25, 61⟩⟩)]

def classic : Palette := ⟨⟨0, 255, 0⟩, ⟨0, 0, 0⟩⟩

def named (name : String) : Except Fault Palette :=
  match schemes.lookup name with
  | some palette => .ok palette
  | none => .error (.unknownScheme name (schemes.map (·.1)))

def colour (p : Palette) (lit : Bool) : Colour := if lit then p.on else p.off

end Palette

end ChipEight
