import ChipEight.Bitmap

/-!
Bitmaps seen through their pixels. The numbers of the pixels are those of the
cells, each once, so two bitmaps with the same pixels are the same, and whether
two bitmaps meet is a question about one pixel. A pixel can be flipped on its own.
-/

namespace ChipEight.Bitmap

variable {width height : Nat}

/-- A pixel is found by its number alone. -/
theorem number_inj {x x' : Fin width} {y y' : Fin height}
    (h : y.val * width + x.val = y'.val * width + x'.val) : x = x' ∧ y = y' := by
  have hx : x.val = x'.val := by
    have hmod := congrArg (· % width) h
    simpa only [Nat.mul_add_mod', Nat.mod_eq_of_lt x.isLt, Nat.mod_eq_of_lt x'.isLt] using hmod
  have hy : y.val = y'.val := by
    rw [hx] at h
    exact Nat.eq_of_mul_eq_mul_right x.pos (Nat.add_right_cancel h)
  exact ⟨Fin.ext hx, Fin.ext hy⟩

theorem exists_number {p : Nat} (hp : p < width * height) :
    ∃ (x : Fin width) (y : Fin height), y.val * width + x.val = p := by
  have hwidth : 0 < width := Nat.pos_of_mul_pos_right (Nat.zero_lt_of_lt hp)
  refine ⟨⟨p % width, Nat.mod_lt p hwidth⟩, ⟨p / width, Nat.div_lt_of_lt_mul hp⟩, ?_⟩
  exact Nat.div_add_mod' p width

theorem ext_pixel {a b : Bitmap width height} (h : ∀ x y, a.pixel x y = b.pixel x y) : a = b := by
  cases a with
  | mk cells =>
    cases b with
    | mk other =>
      congr
      apply Vector.ext
      intro p hp
      obtain ⟨x, y, rfl⟩ := exists_number hp
      exact h x y

theorem getElem?_rows (b : Bitmap width height) (y : Fin height) :
    b.rows[y.val]? = some (b.row y) := by
  rw [rows, List.getElem?_ofFn, dif_pos y.isLt]

theorem getElem?_row (b : Bitmap width height) (x : Fin width) (y : Fin height) :
    (b.row y)[x.val]? = some (b.pixel x y) := by
  rw [row, List.getElem?_ofFn, dif_pos x.isLt]

/-- A function of the column and the row gives the pixels of a bitmap. -/
theorem pixel_ofCells_divMod (on : Nat → Nat → Bool) (x : Fin width) (y : Fin height) :
    (ofCells fun p : Fin (width * height) => on (p.val % width) (p.val / width)).pixel x y =
      on x.val y.val := by
  have hcolumn : (y.val * width + x.val) % width = x.val := by
    rw [Nat.mul_add_mod', Nat.mod_eq_of_lt x.isLt]
  have hrow : (y.val * width + x.val) / width = y.val := by
    rw [Nat.add_comm, Nat.add_mul_div_right _ _ x.pos, Nat.div_eq_of_lt x.isLt, Nat.zero_add]
  rw [pixel_ofCells, hcolumn, hrow]

/-- A bitmap is given back by its rows. -/
theorem ofRows_rows (b : Bitmap width height) : ofRows width height b.rows = b := by
  apply ext_pixel
  intro x y
  rw [ofRows, pixel_ofCells_divMod fun x y => ((b.rows[y]?).bind fun row => row[x]?).getD false,
    getElem?_rows, Option.bind_some, getElem?_row, Option.getD_some]

theorem meets_eq_true_iff (a b : Bitmap width height) :
    a.meets b = true ↔ ∃ x y, a.pixel x y = true ∧ b.pixel x y = true := by
  simp only [meets, Vector.any_eq_true, Vector.getElem_zipWith, id, Bool.and_eq_true]
  constructor
  · intro hcell
    rcases hcell with ⟨p, hp, hmeet⟩
    obtain ⟨x, y, rfl⟩ := exists_number hp
    exact ⟨x, y, hmeet⟩
  · intro hpixel
    rcases hpixel with ⟨x, y, hmeet⟩
    exact ⟨y.val * width + x.val, number_lt x y, hmeet⟩

def flip (b : Bitmap width height) (x : Fin width) (y : Fin height) : Bitmap width height :=
  ⟨b.cells.set (y.val * width + x.val) (!b.pixel x y) (number_lt x y)⟩

theorem pixel_flip (b : Bitmap width height) (x x' : Fin width) (y y' : Fin height) :
    (b.flip x y).pixel x' y' = (b.pixel x' y' ^^ decide (x' = x ∧ y' = y)) := by
  have hset : (b.flip x y).pixel x' y' =
      if y.val * width + x.val = y'.val * width + x'.val then !b.pixel x y else b.pixel x' y' :=
    Vector.getElem_set (number_lt x y) (number_lt x' y')
  rw [hset]
  by_cases h : x' = x ∧ y' = y
  · obtain ⟨rfl, rfl⟩ := h
    simp
  · have hne : y.val * width + x.val ≠ y'.val * width + x'.val := by
      intro heq
      obtain ⟨hx, hy⟩ := number_inj heq
      exact h ⟨hx.symm, hy.symm⟩
    simp [hne, h]

end ChipEight.Bitmap
