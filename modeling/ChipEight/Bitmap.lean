/-!
Pictures of two tones. A bitmap of a width and a height holds one flag for
each pixel, row after row from the top, so the pixel in column `x` and row `y`
has the number `y * width + x`.
-/

namespace ChipEight

/-- Which pixels are on, row after row. -/
structure Bitmap (width height : Nat) where
  cells : Vector Bool (width * height)
  deriving DecidableEq

namespace Bitmap

variable {width height : Nat}

/-- The number of a pixel is one of the bitmap. -/
theorem number_lt (x : Fin width) (y : Fin height) : y.val * width + x.val < width * height := by
  have hx := x.isLt
  have hy : (y.val + 1) * width ≤ height * width := Nat.mul_le_mul_right width y.isLt
  rw [Nat.add_mul, Nat.one_mul] at hy
  rw [Nat.mul_comm width height]
  omega

def pixel (b : Bitmap width height) (x : Fin width) (y : Fin height) : Bool :=
  b.cells.get ⟨y.val * width + x.val, number_lt x y⟩

def ofCells (on : Fin (width * height) → Bool) : Bitmap width height := ⟨Vector.ofFn on⟩

/-- The bitmap of the rows of a list, from the top; missing pixels are off. -/
def ofRows (width height : Nat) (rows : List (List Bool)) : Bitmap width height :=
  ofCells fun p => ((rows[p.val / width]?).bind fun row => row[p.val % width]?).getD false

def blank : Bitmap width height := ⟨Vector.replicate (width * height) false⟩

def row (b : Bitmap width height) (y : Fin height) : List Bool :=
  List.ofFn fun x => b.pixel x y

def rows (b : Bitmap width height) : List (List Bool) := List.ofFn b.row

def xor (a b : Bitmap width height) : Bitmap width height :=
  ⟨Vector.zipWith (fun p q => p ^^ q) a.cells b.cells⟩

def meets (a b : Bitmap width height) : Bool :=
  (Vector.zipWith (fun p q => p && q) a.cells b.cells).any id

theorem pixel_blank (x : Fin width) (y : Fin height) :
    (blank : Bitmap width height).pixel x y = false := by
  simp [pixel, blank, Vector.get]

theorem pixel_ofCells (on : Fin (width * height) → Bool) (x : Fin width) (y : Fin height) :
    (ofCells on).pixel x y = on ⟨y.val * width + x.val, number_lt x y⟩ := by
  exact Vector.getElem_ofFn (number_lt x y)

theorem pixel_xor (a b : Bitmap width height) (x : Fin width) (y : Fin height) :
    (a.xor b).pixel x y = (a.pixel x y ^^ b.pixel x y) := by
  exact Vector.getElem_zipWith (number_lt x y)

/-- The bitmap as lines of text, one cell for each pixel, without a line break
at the end. -/
def text (b : Bitmap width height) (on off : String) : String :=
  String.intercalate "\n" (b.rows.map fun row =>
    String.join (row.map fun p => if p then on else off))

end Bitmap

end ChipEight
