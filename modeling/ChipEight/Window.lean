import ChipEight.Fault

/-!
The window of a session as far as it can be refused. Its sides are those of the
screen times the scale, and its title holds the name of the program. The
display takes a side by its low 32 bits, so only sides beyond 64 bits are
unreadable, but a side that comes out negative is refused, and so is one that
comes out longer than any screen.
-/

namespace ChipEight.Window

/-- A side in the number of pixels that the display reads, none if the number
has more than 64 bits. -/
def side? (pixels : Int) : Option Int :=
  if -9223372036854775808 ≤ pixels ∧ pixels ≤ 9223372036854775807 then
    some (pixels.bmod 4294967296)
  else none

def maxSide : Int := 16384

def checkSides (width height : Int) : Except Fault Unit :=
  if width < 0 ∨ height < 0 then .error (.windowNegative width height)
  else if maxSide < width ∨ maxSide < height then .error (.windowTooLarge width height)
  else .ok ()

def checkSize (scale : Int) : Except Fault Unit :=
  match side? (64 * scale), side? (32 * scale) with
  | some width, some height => checkSides width height
  | _, _ => .error (.windowOutOfRange scale)

def checkTitle (name : String) : Except Fault Unit :=
  if name.toList.contains '\x00' then .error .zeroInTitle else .ok ()

def check (scale : Int) (name : String) : Except Fault Unit :=
  match checkSize scale with
  | .ok () => checkTitle name
  | .error fault => .error fault

end ChipEight.Window
