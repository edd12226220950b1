import ChipEight.Image
import ChipEight.Proofs.Screen.Blocks
import ChipEight.Proofs.Screen.Pixel
import Mathlib.Data.Fin.Basic

/-!
The pixels of an image. A row is stretched sideways and the rows are stretched downwards,
so a pixel of the image has the colour of the pixel of the bitmap that is found by dividing
its column and its row by the scale. An image in two colours tells its bitmap, and there is
one for every scale that can be counted together with the bytes of its image.
-/

namespace ChipEight.Image

variable {width height : Nat}

def pixel? (image : Image) (x y : Nat) : Option Colour :=
  (image.rows[y]?).bind fun row => row[x]?

/-- The image of a bitmap, of which each pixel is a square with sides of a length. -/
structure Enlarges (image : Image) (b : Bitmap width height) (length : Nat)
    (palette : Palette) : Prop where
  sides : image.width = width * length ∧ image.height = height * length
  length_rows : image.rows.length = height * length
  length_row : ∀ row ∈ image.rows, row.length = width * length
  pixel : ∀ (x : Fin (width * length)) (y : Fin (height * length)),
    image.pixel? x.val y.val = some (palette.colour (b.pixel x.divNat y.divNat))

/-- The bitmap of the pixels of one colour, looking at every `step`-th column and row. -/
def sample (image : Image) (width height step : Nat) (on : Colour) : Bitmap width height :=
  Bitmap.ofCells fun p =>
    decide (image.pixel? (step * (p.val % width)) (step * (p.val / width)) = some on)

/-- The scale and the bytes of the image can be counted in 63 bits. -/
def Fits (width height : Nat) (scale : Int) : Prop :=
  scale < 2 ^ 63 ∧ bytes (width * side scale) (height * side scale) < 2 ^ 63

instance (width height : Nat) (scale : Int) : Decidable (Fits width height scale) :=
  inferInstanceAs (Decidable (_ ∧ _))

theorem side_pos (scale : Int) : 0 < side scale := Nat.le_max_right _ _

theorem side_eq_max (scale : Int) : (side scale : Int) = max scale 1 := by
  unfold side
  omega

section Stretch

variable {α : Type} {times : Nat} (entries : List α)

theorem stretch_eq_flatten :
    stretch times entries = (entries.map (List.replicate times)).flatten := List.flatMap_def ..

theorem sized_replicate : Blocks.Sized times (entries.map (List.replicate times)) := by
  intro block hblock
  obtain ⟨entry, -, rfl⟩ := List.mem_map.1 hblock
  exact List.length_replicate

theorem length_stretch : (stretch times entries).length = entries.length * times := by
  rw [stretch_eq_flatten, Blocks.length_flatten (sized_replicate entries), List.length_map]

theorem mem_of_mem_stretch {entry : α} (h : entry ∈ stretch times entries) : entry ∈ entries := by
  obtain ⟨other, hother, hmem⟩ := List.mem_flatMap.1 h
  rw [List.eq_of_mem_replicate hmem]
  exact hother

/-- The entry at a place is found by dividing the place. -/
theorem getElem?_stretch (htimes : 0 < times) (i : Nat) :
    (stretch times entries)[i]? = entries[i / times]? := by
  rw [stretch_eq_flatten, Blocks.getElem?_flatten (sized_replicate entries) htimes,
    List.getElem?_map]
  cases entries[i / times]? with
  | none => rfl
  | some entry => exact List.getElem?_replicate_of_lt (Nat.mod_lt i htimes)

end Stretch

/-- The image of a bitmap is exact at every scale. -/
theorem enlarges_ofBitmap (b : Bitmap width height) (scale : Int) (palette : Palette) :
    (ofBitmap b scale palette).Enlarges b (side scale) palette := by
  constructor
  case sides => exact ⟨rfl, rfl⟩
  case length_rows =>
    rw [ofBitmap, length_stretch, List.length_map, Bitmap.rows, List.length_ofFn]
  case length_row =>
    intro row hrow
    obtain ⟨line, hline, rfl⟩ := List.mem_map.1 (mem_of_mem_stretch _ hrow)
    obtain ⟨y, rfl⟩ := List.mem_ofFn.1 hline
    rw [length_stretch, List.length_map, Bitmap.row, List.length_ofFn]
  case pixel =>
    intro x y
    have hrow : b.rows[y.val / side scale]? = some (b.row y.divNat) := b.getElem?_rows y.divNat
    have hpixel : (b.row y.divNat)[x.val / side scale]? = some (b.pixel x.divNat y.divNat) :=
      b.getElem?_row x.divNat y.divNat
    rw [pixel?, ofBitmap, getElem?_stretch _ (side_pos scale), List.getElem?_map, hrow,
      Option.map_some, Option.bind_some, getElem?_stretch _ (side_pos scale),
      List.getElem?_map, hpixel, Option.map_some]

section Sample

variable {image : Image} {b : Bitmap width height} {length : Nat} {palette : Palette}
  (h : image.Enlarges b length palette) (hlength : 0 < length)
  (hcolours : palette.on ≠ palette.off)
include h hlength hcolours

/-- The upper left corner of a square tells whether its pixel is on. -/
theorem Enlarges.pixel?_eq_on_iff (x : Fin width) (y : Fin height) :
    image.pixel? (length * x.val) (length * y.val) = some palette.on ↔ b.pixel x y = true := by
  have hx : length * x.val < width * length := by
    rw [Nat.mul_comm width]
    exact Nat.mul_lt_mul_of_pos_left x.isLt hlength
  have hy : length * y.val < height * length := by
    rw [Nat.mul_comm height]
    exact Nat.mul_lt_mul_of_pos_left y.isLt hlength
  have hcolumn : (⟨length * x.val, hx⟩ : Fin (width * length)).divNat = x :=
    Fin.ext (Nat.mul_div_cancel_left x.val hlength)
  have hrow : (⟨length * y.val, hy⟩ : Fin (height * length)).divNat = y :=
    Fin.ext (Nat.mul_div_cancel_left y.val hlength)
  have hpixel := h.pixel ⟨length * x.val, hx⟩ ⟨length * y.val, hy⟩
  rw [hcolumn, hrow] at hpixel
  rw [hpixel]
  cases b.pixel x y with
  | true => exact iff_of_true rfl rfl
  | false => exact iff_of_false (fun hoff => hcolours (Option.some.inj hoff).symm) Bool.false_ne_true

theorem Enlarges.sample_eq : image.sample width height length palette.on = b := by
  apply Bitmap.ext_pixel
  intro x y
  rw [sample, Bitmap.pixel_ofCells_divMod fun x y =>
    decide (image.pixel? (length * x) (length * y) = some palette.on),
    decide_eq_decide.2 (h.pixel?_eq_on_iff hlength hcolours x y)]
  exact Bool.decide_coe (b.pixel x y)

end Sample

theorem checkBytes_eq_ok_iff (count : Nat) : checkBytes count = .ok () ↔ count < 2 ^ 63 := by
  have hlimit : Nat.pow 2 63 = 2 ^ 63 := rfl
  unfold checkBytes
  split
  case isTrue hcount =>
    constructor
    · intro h
      cases h
    · omega
  case isFalse hcount =>
    constructor
    · omega
    · exact fun _ => rfl

/-- Stretching an image sideways takes no bytes away. -/
theorem bytes_le_bytes (width height scale : Nat) (hscale : 0 < scale) :
    bytes width height ≤ bytes (width * scale) height := by
  have hwidth : width ≤ width * scale := Nat.le_mul_of_pos_right width hscale
  have hside : max width 1 ≤ max (width * scale) 1 := by omega
  exact Nat.mul_le_mul_left 3 (Nat.mul_le_mul_right _ hside)

theorem checkScale_eq_ok_iff (width height : Nat) (scale : Int) :
    checkScale width height scale = .ok () ↔ Fits width height scale := by
  have hlimit : Int.pow 2 63 = 2 ^ 63 := rfl
  have hbytes := bytes_le_bytes width (height * side scale) (side scale) (side_pos scale)
  unfold checkScale Fits
  by_cases hscale : Int.pow 2 63 ≤ scale
  · rw [if_pos hscale]
    constructor
    · intro h
      cases h
    · omega
  · rw [if_neg hscale]
    have hboth : ((checkBytes (bytes width (height * side scale))).bind fun _ =>
        checkBytes (bytes (width * side scale) (height * side scale))) = .ok () ↔
          checkBytes (bytes width (height * side scale)) = .ok () ∧
            checkBytes (bytes (width * side scale) (height * side scale)) = .ok () := by
      cases checkBytes (bytes width (height * side scale)) with
      | ok _ => exact (and_iff_right rfl).symm
      | error fault => exact iff_of_false (fun h => by cases h) (fun h => by cases h.1)
    rw [checkBytes_eq_ok_iff, checkBytes_eq_ok_iff] at hboth
    refine hboth.trans ?_
    omega

/-- A bitmap is rendered as its image or not at all. -/
theorem render_eq_ok_iff (b : Bitmap width height) (scale : Int) (palette : Palette)
    (image : Image) : render b scale palette = .ok image ↔
      Fits width height scale ∧ image = ofBitmap b scale palette := by
  rw [← checkScale_eq_ok_iff, render]
  cases checkScale width height scale with
  | ok _ =>
    constructor
    · intro h
      exact ⟨rfl, (Except.ok.inj h).symm⟩
    · rintro ⟨-, rfl⟩
      rfl
  | error fault => exact iff_of_false (fun h => by cases h) (fun h => by cases h.1)

/-- Where the image can be counted it is rendered, and it is exact: each pixel becomes a
square of its colour, whose side is the scale but at least one. In two colours the bitmap is
found again in every so many-th column and row, so no other bitmap of its size has its
image. -/
theorem render_exact (b : Bitmap width height) (scale : Int) (palette : Palette)
    (hfits : Fits width height scale) :
    (side scale : Int) = max scale 1 ∧
    ∃ image, render b scale palette = .ok image ∧
      image.Enlarges b (side scale) palette ∧
      (palette.on ≠ palette.off →
        image.sample width height (side scale) palette.on = b ∧
        ∀ other : Bitmap width height, render other scale palette = .ok image → other = b) := by
  have hsample (c : Bitmap width height) (hcolours : palette.on ≠ palette.off) :
      (ofBitmap c scale palette).sample width height (side scale) palette.on = c :=
    (enlarges_ofBitmap c scale palette).sample_eq (side_pos scale) hcolours
  refine ⟨side_eq_max scale, ofBitmap b scale palette,
    (render_eq_ok_iff b scale palette _).2 ⟨hfits, rfl⟩, enlarges_ofBitmap b scale palette, ?_⟩
  intro hcolours
  refine ⟨hsample b hcolours, ?_⟩
  intro other hother
  obtain ⟨-, himage⟩ := (render_eq_ok_iff other scale palette _).1 hother
  rw [← hsample other hcolours, ← himage, hsample b hcolours]

def slanted : Bitmap 3 2 := ⟨#v[false, true, true, true, false, false]⟩

def redOnBlue : Palette := ⟨⟨255, 0, 0⟩, ⟨0, 0, 10⟩⟩

/-- At scale 2 the second pixel of the first row is a square behind the first two columns,
and no other picture of three columns and two rows has the same image. -/
theorem render_exact_slanted : Fits 3 2 2 ∧ ∃ image, render slanted 2 redOnBlue = .ok image ∧
    image.rows.length = 4 ∧ image.pixel? 2 1 = some redOnBlue.on ∧
    image.pixel? 1 1 = some redOnBlue.off ∧ image.pixel? 1 2 = some redOnBlue.on ∧
    image.sample 3 2 2 redOnBlue.on = slanted ∧
    ∀ other : Bitmap 3 2, render other 2 redOnBlue = .ok image → other = slanted := by
  have hfits : Fits 3 2 2 := by decide
  obtain ⟨-, image, himage, henlarges, hsample⟩ := render_exact slanted 2 redOnBlue hfits
  have hpixel (x : Fin (3 * 2)) (y : Fin (2 * 2)) :
      image.pixel? x.val y.val = some (redOnBlue.colour (slanted.pixel x.divNat y.divNat)) :=
    henlarges.pixel x y
  exact ⟨hfits, image, himage, henlarges.length_rows, hpixel 2 1, hpixel 1 1, hpixel 1 2,
    hsample (by decide)⟩

/-- Not every scale has an image. One that is no number of 63 bits is refused even for a
bitmap without pixels, and a smaller one if it makes too many bytes of a single pixel. -/
theorem uncountable_scale_refused :
    render (Bitmap.blank : Bitmap 0 0) (2 ^ 63) Palette.classic =
      .error (.imageScaleOutOfRange (2 ^ 63)) ∧
    render (Bitmap.blank : Bitmap 1 1) (2 ^ 62) Palette.classic = .error .imageUncountable ∧
    ¬ ∀ (width height : Nat) (b : Bitmap width height) (scale : Int) (palette : Palette),
      ∃ image, render b scale palette = .ok image ∧ image.Enlarges b (side scale) palette := by
  refine ⟨rfl, rfl, ?_⟩
  intro hall
  obtain ⟨image, himage, -⟩ := hall 0 0 Bitmap.blank (2 ^ 63) Palette.classic
  obtain ⟨⟨hcounted, -⟩, -⟩ := (render_eq_ok_iff _ _ _ image).1 himage
  exact absurd hcounted (by decide)

end ChipEight.Image
