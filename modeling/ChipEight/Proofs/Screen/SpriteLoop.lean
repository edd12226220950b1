import ChipEight.Machine.Execute
import ChipEight.Proofs.Screen.Pixel
import Mathlib.Data.List.Nodup
import Mathlib.Data.List.ProdSigma
import Mathlib.Order.Fin.Basic

/-!
A sprite drawn pixel by pixel. The plain loop visits the rows of a sprite from
the top and their bits from the left, flips a pixel of the screen for each lit
bit and notes whether one of them was on when its turn came. No pixel has its
turn twice, so the loop leaves the screen and the flag that the machine computes
at once from the mask of the sprite.
-/

namespace ChipEight

/-- A screen in the middle of a drawing, and whether a pixel that was flipped
had been on. -/
structure Drawing where
  screen : Screen
  collided : Bool

namespace Drawing

def flip (d : Drawing) (p : Fin 64 × Fin 32) : Drawing where
  screen := d.screen.flip p.1 p.2
  collided := d.collided || d.screen.pixel p.1 p.2

def visit (memory : Memory) (index vx vy row col : Nat) (d : Drawing) : Drawing :=
  let p := vx + col + 64 * (vy + row)
  if h : (memory.read ((index + row) % 4096)).toNat.testBit (7 - col) ∧ p < 2048 then
    d.flip (⟨p % 64, by omega⟩, ⟨p / 64, by omega⟩)
  else d

/-- Visits the bits of a sprite row by row, from the left within each row. -/
def sprite (memory : Memory) (index vx vy height : Nat) (screen : Screen) : Drawing :=
  (List.range height).foldl
    (fun d row => (List.range 8).foldl
      (fun d col => d.visit memory index vx vy row col) d)
    ⟨screen, false⟩

/-- Flipping different pixels one after the other flips each of them once. -/
theorem pixel_foldl_flip (ps : List (Fin 64 × Fin 32)) (d : Drawing) (h : ps.Nodup)
    (x : Fin 64) (y : Fin 32) :
    (ps.foldl flip d).screen.pixel x y = (d.screen.pixel x y ^^ decide ((x, y) ∈ ps)) := by
  induction ps generalizing d with
  | nil => simp
  | cons p rest ih =>
    obtain ⟨hp, hrest⟩ := List.nodup_cons.1 h
    rw [List.foldl_cons, ih _ hrest, flip, Bitmap.pixel_flip]
    by_cases hxy : (x, y) = p
    · subst hxy
      simp [hp]
    · have hne : ¬ (x = p.1 ∧ y = p.2) := fun heq => hxy (Prod.ext heq.1 heq.2)
      simp [hxy, hne]

/-- A pixel collides exactly if it was on before the first was flipped. -/
theorem collided_foldl_flip (ps : List (Fin 64 × Fin 32)) (d : Drawing) (h : ps.Nodup) :
    (ps.foldl flip d).collided = true ↔
      d.collided = true ∨ ∃ p ∈ ps, d.screen.pixel p.1 p.2 = true := by
  induction ps generalizing d with
  | nil => simp
  | cons p rest ih =>
    obtain ⟨hp, hrest⟩ := List.nodup_cons.1 h
    -- the pixels still to come are those of the screen before the flip
    have hkeep (q) (hq : q ∈ rest) : (d.flip p).screen.pixel q.1 q.2 = d.screen.pixel q.1 q.2 := by
      have hne : ¬ (q.1 = p.1 ∧ q.2 = p.2) := fun heq => hp (Prod.ext heq.1 heq.2 ▸ hq)
      simp [flip, Bitmap.pixel_flip, hne]
    have hlater : (∃ q ∈ rest, (d.flip p).screen.pixel q.1 q.2 = true) ↔
        ∃ q ∈ rest, d.screen.pixel q.1 q.2 = true :=
      exists_congr fun q => and_congr_right fun hq => by rw [hkeep q hq]
    rw [List.foldl_cons, ih _ hrest, hlater, List.exists_mem_cons_iff, ← or_assoc]
    simp [flip]

section Positions

variable (memory : Memory) (index vx vy height : Nat)

def lit (bit : Nat × Nat) : Option (Fin 64 × Fin 32) :=
  let p := vx + bit.2 + 64 * (vy + bit.1)
  if h : (memory.read ((index + bit.1) % 4096)).toNat.testBit (7 - bit.2) ∧ p < 2048 then
    some (⟨p % 64, by omega⟩, ⟨p / 64, by omega⟩)
  else none

def positions : List (Fin 64 × Fin 32) :=
  (List.range height ×ˢ List.range 8).filterMap (lit memory index vx vy)

theorem visit_eq (row col : Nat) (d : Drawing) :
    d.visit memory index vx vy row col = (lit memory index vx vy (row, col)).elim d d.flip := by
  unfold visit lit
  dsimp only
  split
  · rfl
  · rfl

theorem sprite_eq_foldl (screen : Screen) :
    sprite memory index vx vy height screen =
      (positions memory index vx vy height).foldl flip ⟨screen, false⟩ := by
  have hproduct : List.range height ×ˢ List.range 8 =
      (List.range height).flatMap fun row => (List.range 8).map fun col => (row, col) := rfl
  simp only [sprite, positions, hproduct, List.foldl_filterMap, List.foldl_flatMap, List.foldl_map]
  congr
  funext d row
  congr
  funext d col
  rw [visit_eq]
  cases lit memory index vx vy (row, col) with
  | none => rfl
  | some p => rfl

theorem lit_eq_some_iff (bit : Nat × Nat) (x : Fin 64) (y : Fin 32) :
    lit memory index vx vy bit = some (x, y) ↔
      (memory.read ((index + bit.1) % 4096)).toNat.testBit (7 - bit.2) = true ∧
        x.val + 64 * y.val = vx + bit.2 + 64 * (vy + bit.1) := by
  have hx := x.isLt
  have hy := y.isLt
  unfold lit
  dsimp only
  split
  case isTrue h =>
    simp only [Option.some.injEq, Prod.mk.injEq, Fin.ext_iff, h.1, true_and]
    omega
  case isFalse h =>
    simp only [reduceCtorEq, false_iff, not_and]
    intro hbit heq
    exact h ⟨hbit, by omega⟩

theorem mem_positions_iff (x : Fin 64) (y : Fin 32) :
    (x, y) ∈ positions memory index vx vy height ↔
      ∃ row < height, ∃ col < 8,
        (memory.read ((index + row) % 4096)).toNat.testBit (7 - col) = true ∧
          x.val + 64 * y.val = vx + col + 64 * (vy + row) := by
  simp only [positions, List.mem_filterMap, Prod.exists, List.mem_product, List.mem_range,
    lit_eq_some_iff]
  constructor
  · intro hbit
    rcases hbit with ⟨row, col, ⟨hrow, hcol⟩, h⟩
    exact ⟨row, hrow, col, hcol, h⟩
  · intro hlit
    rcases hlit with ⟨row, hrow, col, hcol, h⟩
    exact ⟨row, col, ⟨hrow, hcol⟩, h⟩

/-- No pixel has its turn twice: a row of a sprite is shorter than one of the
screen. -/
theorem nodup_positions : (positions memory index vx vy height).Nodup := by
  refine List.pairwise_filterMap.2 (List.Pairwise.imp_of_mem ?_
    (List.nodup_range.product List.nodup_range))
  intro bit bit' hmem hmem' hne p hp p' hp' heq
  subst heq
  rw [lit_eq_some_iff] at hp hp'
  rw [List.mem_product, List.mem_range, List.mem_range] at hmem hmem'
  apply hne
  rw [Prod.mk.injEq]
  omega

end Positions

end Drawing

end ChipEight
