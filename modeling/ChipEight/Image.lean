import ChipEight.Bitmap
import ChipEight.Colour

/-!
Coloured images of bitmaps. Each pixel of the bitmap becomes a square whose
side is the scale, at least one, so the image pixel in column `x` and row `y`
has the colour of the bitmap pixel at `x / scale` and `y / scale`. An image is
stretched downwards first and then sideways, and a scale is refused if the
bytes of either result cannot be counted in 63 bits.
-/

namespace ChipEight

/-- The rows of an image from the top, each from the left. The width is kept
beside them, for rows may be missing. -/
structure Image where
  width : Nat
  height : Nat
  rows : List (List Colour)
  deriving DecidableEq, Repr

namespace Image

def stretch {α : Type} (times : Nat) (entries : List α) : List α :=
  entries.flatMap (List.replicate times)

/-- The side of the square that shows a pixel; a scale below one counts as one. -/
def side (scale : Int) : Nat := max scale.toNat 1

def defaultScale : Int := 8

def ofBitmap {width height : Nat} (b : Bitmap width height) (scale : Int)
    (palette : Palette) : Image where
  width := width * side scale
  height := height * side scale
  rows := stretch (side scale) (b.rows.map fun row =>
    stretch (side scale) (row.map palette.colour))

/-- The number of bytes in an image, three for each pixel. A side without
pixels counts as one pixel. -/
def bytes (width height : Nat) : Nat := 3 * (max width 1 * max height 1)

def checkBytes (count : Nat) : Except Fault Unit :=
  if Nat.pow 2 63 ≤ count then .error .imageUncountable else .ok ()

def checkScale (width height : Nat) (scale : Int) : Except Fault Unit := do
  if Int.pow 2 63 ≤ scale then throw (.imageScaleOutOfRange scale)
  checkBytes (bytes width (height * side scale))
  checkBytes (bytes (width * side scale) (height * side scale))

def render {width height : Nat} (b : Bitmap width height) (scale : Int) (palette : Palette) :
    Except Fault Image :=
  (checkScale width height scale).map fun _ => ofBitmap b scale palette

end Image

end ChipEight
