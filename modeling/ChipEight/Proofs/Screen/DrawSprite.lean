import ChipEight.Proofs.Screen.SpriteLoop

/-!
The instruction that draws a sprite, against the loop over its pixels. The mask
that the machine uses covers the pixels that the loop flips. So the screen after
the instruction is the one that the loop leaves, register F holds the flag of the
loop, and nothing else but the note that the screen has changed is new.
-/

namespace ChipEight

theorem Sprite.covers_eq_true_iff (rows : List UInt8) (start p : Nat) :
    Sprite.covers rows start p = true ↔
      ∃ row byte, rows[row]? = some byte ∧
        ∃ col < 8, byte.toNat.testBit (7 - col) = true ∧ p = start + col + 64 * row := by
  simp only [covers, Bool.and_eq_true, decide_eq_true_eq, Option.any_eq_true]
  constructor
  · intro hcover
    rcases hcover with ⟨⟨hstart, hcol⟩, byte, hbyte, hbit⟩
    exact ⟨(p - start) / 64, byte, hbyte, (p - start) % 64, hcol, hbit, by omega⟩
  · intro hlit
    rcases hlit with ⟨row, byte, hbyte, col, hcol, hbit, rfl⟩
    have hrow : (start + col + 64 * row - start) / 64 = row := by omega
    have hmod : (start + col + 64 * row - start) % 64 = col := by omega
    rw [hrow, hmod]
    exact ⟨⟨by omega, hcol⟩, byte, hbyte, hbit⟩

theorem Memory.getElem?_readBytes_eq_some_iff (m : Memory) (a count i : Nat) (b : UInt8) :
    (m.readBytes a count)[i]? = some b ↔ i < count ∧ m.read (a + i) = b := by
  simp [readBytes, List.getElem?_eq_some_iff]

namespace Machine

variable (m : Machine) (x y : Register) (height : Fin 16)

def spriteDrawing : Drawing :=
  Drawing.sprite m.memory m.index.toNat (m.reg x).toNat (m.reg y).toNat height.val m.screen

def spritePixels : List (Fin 64 × Fin 32) :=
  Drawing.positions m.memory m.index.toNat (m.reg x).toNat (m.reg y).toNat height.val

/-- The mask of a sprite covers the pixels that the loop flips. -/
theorem pixel_mask (px : Fin 64) (py : Fin 32) :
    (Sprite.mask (m.spriteRows height) (m.spriteStart x y)).pixel px py =
      decide ((px, py) ∈ m.spritePixels x y height) := by
  rw [Sprite.mask, Bitmap.pixel_ofCells, Bool.eq_iff_iff, decide_eq_true_eq,
    Sprite.covers_eq_true_iff, spritePixels, Drawing.mem_positions_iff]
  simp only [spriteRows, Memory.getElem?_readBytes_eq_some_iff, spriteStart, Memory.read_mod]
  constructor
  · intro hlit
    rcases hlit with ⟨row, byte, ⟨hrow, rfl⟩, col, hcol, hbit, heq⟩
    exact ⟨row, hrow, col, hcol, hbit, by omega⟩
  · intro hlit
    rcases hlit with ⟨row, hrow, col, hcol, hbit, heq⟩
    exact ⟨row, _, ⟨hrow, rfl⟩, col, hcol, hbit, by omega⟩

theorem spriteDrawing_eq_foldl : m.spriteDrawing x y height =
    (m.spritePixels x y height).foldl Drawing.flip ⟨m.screen, false⟩ :=
  Drawing.sprite_eq_foldl ..

theorem nodup_spritePixels : (m.spritePixels x y height).Nodup := Drawing.nodup_positions ..

theorem pixel_spriteDrawing (px : Fin 64) (py : Fin 32) :
    (m.spriteDrawing x y height).screen.pixel px py =
      (m.screen.pixel px py ^^ decide ((px, py) ∈ m.spritePixels x y height)) := by
  rw [spriteDrawing_eq_foldl]
  exact Drawing.pixel_foldl_flip _ _ (m.nodup_spritePixels x y height) px py

theorem screen_spriteDrawing : (m.spriteDrawing x y height).screen =
    m.screen.xor (Sprite.mask (m.spriteRows height) (m.spriteStart x y)) := by
  apply Bitmap.ext_pixel
  intro px py
  rw [pixel_spriteDrawing, Bitmap.pixel_xor, pixel_mask]

theorem collided_spriteDrawing : (m.spriteDrawing x y height).collided =
    m.screen.meets (Sprite.mask (m.spriteRows height) (m.spriteStart x y)) := by
  have hloop := Drawing.collided_foldl_flip (m.spritePixels x y height) ⟨m.screen, false⟩
    (m.nodup_spritePixels x y height)
  rw [← spriteDrawing_eq_foldl] at hloop
  rw [Bool.eq_iff_iff, hloop, Bitmap.meets_eq_true_iff]
  simp only [pixel_mask, decide_eq_true_eq, Bool.false_eq_true, false_or, Prod.exists, and_comm]

theorem execute_draw_eq : m.execute (.draw x y height) =
    { m with
      screen := (m.spriteDrawing x y height).screen
      registers := m.registers.set flag (if (m.spriteDrawing x y height).collided then 1 else 0)
      dirty := true } := by
  rw [screen_spriteDrawing, collided_spriteDrawing]
  rfl

theorem pixel_execute_draw_of_unlit (px : Fin 64) (py : Fin 32)
    (hunlit : ∀ row < height.val, ∀ col < 8,
      (m.memory.read ((m.index.toNat + row) % 4096)).toNat.testBit (7 - col) = true →
        px.val + 64 * py.val ≠ (m.reg x).toNat + col + 64 * ((m.reg y).toNat + row)) :
    (m.execute (.draw x y height)).screen.pixel px py = m.screen.pixel px py := by
  have hnot : (px, py) ∉ m.spritePixels x y height := by
    rw [spritePixels, Drawing.mem_positions_iff]
    intro hlit
    rcases hlit with ⟨row, hrow, col, hcol, hbit, heq⟩
    exact hunlit row hrow col hcol hbit heq
  rw [execute_draw_eq]
  simp only [pixel_spriteDrawing, hnot, decide_false, Bool.xor_false]

/-- Of the corner only the number of its pixel matters. -/
theorem execute_draw_congr {k : Machine} {x' y' : Register} (hmemory : k.memory = m.memory)
    (hindex : k.index = m.index) (hscreen : k.screen = m.screen)
    (hstart : k.spriteStart x' y' = m.spriteStart x y) :
    (k.execute (.draw x' y' height)).screen = (m.execute (.draw x y height)).screen ∧
      (k.execute (.draw x' y' height)).reg flag = (m.execute (.draw x y height)).reg flag := by
  have hrows : k.spriteRows height = m.spriteRows height := by
    simp only [spriteRows, hmemory, hindex]
  constructor
  · simp only [execute, drawSprite, hrows, hstart, hscreen]
  · simp only [execute, drawSprite, hrows, hstart, hscreen, reg, setReg, Fin.getElem_fin,
      Vector.getElem_set_self]

/-- Drawing a sprite at once is drawing it pixel by pixel: the screen and the
flag are those of the loop, no other pixel and no other part of the machine
changes, and of the corner only `vx + 64 * vy` counts. -/
theorem draw_eq_loop :
    m.execute (.draw x y height) =
      { m with
        screen := (m.spriteDrawing x y height).screen
        registers := m.registers.set flag (if (m.spriteDrawing x y height).collided then 1 else 0)
        dirty := true } ∧
    (∀ px py, (∀ row < height.val, ∀ col < 8,
      (m.memory.read ((m.index.toNat + row) % 4096)).toNat.testBit (7 - col) = true →
        px.val + 64 * py.val ≠ (m.reg x).toNat + col + 64 * ((m.reg y).toNat + row)) →
      (m.execute (.draw x y height)).screen.pixel px py = m.screen.pixel px py) ∧
    ∀ (k : Machine) (x' y' : Register), k.memory = m.memory → k.index = m.index →
      k.screen = m.screen →
      (k.reg x').toNat + 64 * (k.reg y').toNat = (m.reg x).toNat + 64 * (m.reg y).toNat →
      (k.execute (.draw x' y' height)).screen = (m.execute (.draw x y height)).screen ∧
        (k.execute (.draw x' y' height)).reg flag = (m.execute (.draw x y height)).reg flag := by
  refine ⟨m.execute_draw_eq x y height, ?_, ?_⟩
  · intro px py hunlit
    exact m.pixel_execute_draw_of_unlit x y height px py hunlit
  · intro k x' y' hmemory hindex hscreen hstart
    exact m.execute_draw_congr x y height hmemory hindex hscreen hstart

/-- The glyph of zero drawn past the right edge is the one drawn a row below,
and the pixel in the corner of the screen is not its. -/
theorem draw_glyph_past_edge :
    let m := Machine.fresh ⟨0, 0⟩ true
    ((m.setReg 2 1).execute (.draw 0 2 5)).screen = ((m.setReg 1 64).execute (.draw 1 0 5)).screen ∧
      ((m.setReg 1 64).execute (.draw 1 0 5)).screen.pixel 0 0 = m.screen.pixel 0 0 := by
  intro m
  have hlaw := (m.setReg 1 64).draw_eq_loop 1 0 5
  refine ⟨(hlaw.2.2 (m.setReg 2 1) 0 2 rfl rfl rfl (by decide)).1, hlaw.2.1 0 0 ?_⟩
  intro row _ col _ _ heq
  have hvx : ((m.setReg 1 64).reg 1).toNat = 64 := by decide
  have hcorner : (0 : Fin 64).val + 64 * (0 : Fin 32).val = 0 := by decide
  rw [hcorner, hvx] at heq
  omega

end Machine

end ChipEight
