import ChipEight.Bitmap

/-!
The screen, 64 columns and 32 rows, and the sprites drawn on it. A sprite is
a list of bytes, one for each row, whose high bit is the leftmost pixel. It
starts at a pixel number that is not wrapped: what leaves a row on the right
goes on in the next row, and what lies beyond the last pixel is dropped.
-/

namespace ChipEight

abbrev Screen := Bitmap 64 32

namespace Sprite

def covers (rows : List UInt8) (start p : Nat) : Bool :=
  decide (start ≤ p) && decide ((p - start) % 64 < 8) &&
    (rows[(p - start) / 64]?).any fun byte => byte.toNat.testBit (7 - (p - start) % 64)

def mask (rows : List UInt8) (start : Nat) : Screen :=
  Bitmap.ofCells fun p => covers rows start p.val

end Sprite

end ChipEight
