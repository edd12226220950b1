import ChipEight.Proofs.Machine.Frame
import ChipEight.Proofs.Screen.DrawSprite
import Mathlib.Algebra.BigOperators.Ring.Nat

/-!
Sprites drawn one after the other. A draw changes the screen and register F alone, so
if no corner is kept in register F the sprites are those of the machine before the first
draw, and each pixel is flipped as often as there are draws that cover it. Neither the
order of the draws counts nor a sprite that is drawn an even number of times.
-/

namespace ChipEight

/-- An instruction that draws a sprite, by its operands: the registers of the corner and
the number of rows. -/
structure SpriteDraw where
  x : Register
  y : Register
  height : Fin 16
  deriving DecidableEq, Repr

def SpriteDraw.instruction (d : SpriteDraw) : Instruction := .draw d.x d.y d.height

/-- The corner is in registers that a draw leaves as they are. -/
def SpriteDraw.Steady (d : SpriteDraw) : Prop := d.x ≠ Machine.flag ∧ d.y ≠ Machine.flag

instance (d : SpriteDraw) : Decidable d.Steady := inferInstanceAs (Decidable (_ ∧ _))

/-- Of a list only the members that occur an odd number of times decide whether a condition
is met an odd number of times. -/
theorem odd_countP_iff {α : Type} [DecidableEq α] {l odds : List α} (hnodup : odds.Nodup)
    (hodds : ∀ a, a ∈ odds ↔ Odd (l.count a)) (p : α → Bool) :
    Odd (l.countP p) ↔ Odd (odds.countP p) := by
  have hmembers : {a ∈ (l.filter p).toFinset | Odd ((l.filter p).count a)} =
      (odds.filter p).toFinset := by
    ext a
    simp only [Finset.mem_filter, List.mem_toFinset, List.mem_filter, hodds]
    constructor
    · intro h
      rw [List.count_filter h.1.2] at h
      exact ⟨h.2, h.1.2⟩
    · intro h
      rw [List.count_filter h.2]
      exact ⟨⟨List.count_pos_iff.1 h.1.pos, h.2⟩, h.1⟩
  rw [List.countP_eq_length_filter, ← List.sum_toFinset_count_eq_length,
    Finset.odd_sum_iff_odd_card_odd, hmembers, List.toFinset_card_of_nodup (hnodup.filter p),
    List.countP_eq_length_filter]

/-- A pixel is flipped once by each mask that covers it. -/
theorem Bitmap.pixel_foldl_xor {α : Type} {width height : Nat} (mask : α → Bitmap width height)
    (l : List α) (b : Bitmap width height) (x : Fin width) (y : Fin height) :
    (l.foldl (fun b a => b.xor (mask a)) b).pixel x y =
      (b.pixel x y ^^ decide (Odd (l.countP fun a => (mask a).pixel x y))) := by
  induction l generalizing b with
  | nil => simp
  | cons a rest ih =>
    rw [List.foldl_cons, ih, pixel_xor, List.countP_cons]
    cases (mask a).pixel x y with
    | false => rw [Bool.xor_false, if_neg Bool.false_ne_true, Nat.add_zero]
    | true =>
      rw [if_pos rfl, decide_eq_decide.2 Nat.odd_add_one, decide_not, Bool.xor_true,
        Bool.not_xor, Bool.xor_not]

namespace Machine

variable (m : Machine)

def drawAll (ds : List SpriteDraw) : Machine := ds.foldl (fun m d => m.execute d.instruction) m

def spriteMask (d : SpriteDraw) : Screen :=
  Sprite.mask (m.spriteRows d.height) (m.spriteStart d.x d.y)

theorem pixel_spriteMask_iff (d : SpriteDraw) (px : Fin 64) (py : Fin 32) :
    (m.spriteMask d).pixel px py = true ↔
      ∃ row < d.height.val, ∃ col < 8,
        (m.memory.read ((m.index.toNat + row) % 4096)).toNat.testBit (7 - col) = true ∧
          px.val + 64 * py.val = (m.reg d.x).toNat + col + 64 * ((m.reg d.y).toNat + row) := by
  rw [spriteMask, pixel_mask, decide_eq_true_eq, spritePixels, Drawing.mem_positions_iff]

theorem screen_draw (d : SpriteDraw) :
    (m.execute d.instruction).screen = m.screen.xor (m.spriteMask d) := rfl

theorem reg_flag_draw (d : SpriteDraw) : (m.execute d.instruction).reg flag =
    if m.screen.meets (m.spriteMask d) then 1 else 0 := by
  rw [SpriteDraw.instruction, execute, drawSprite]
  exact (m.reg_setReg flag flag _).trans (if_pos rfl)

theorem reg_flag_draw_eq (d : SpriteDraw) : (m.execute d.instruction).reg flag =
    if ∃ px py, m.screen.pixel px py = true ∧ (m.spriteMask d).pixel px py = true then 1
    else 0 := by
  rw [reg_flag_draw]
  exact if_congr (Bitmap.meets_eq_true_iff _ _) rfl rfl

/-- A draw leaves the sprites of other draws as they are. -/
theorem spriteMask_draw (d : SpriteDraw) {e : SpriteDraw} (he : e.Steady) :
    (m.execute d.instruction).spriteMask e = m.spriteMask e := by
  have hreg {r : Register} (hr : r ≠ flag) : (m.execute d.instruction).reg r = m.reg r :=
    m.reg_setReg_of_ne _ hr
  have hstart : (m.execute d.instruction).spriteStart e.x e.y = m.spriteStart e.x e.y := by
    rw [spriteStart, hreg he.1, hreg he.2, spriteStart]
  rw [spriteMask, hstart]
  rfl

theorem screen_drawAll {ds : List SpriteDraw} (hds : ∀ d ∈ ds, d.Steady) :
    (m.drawAll ds).screen = ds.foldl (fun s d => s.xor (m.spriteMask d)) m.screen := by
  induction ds generalizing m with
  | nil => rfl
  | cons d rest ih =>
    rw [List.forall_mem_cons] at hds
    rw [List.foldl_cons, ← screen_draw]
    refine (ih (m.execute d.instruction) hds.2).trans ?_
    apply List.foldl_ext
    intro screen e he
    rw [m.spriteMask_draw d (hds.2 e he)]

theorem reg_flag_draw_again {d : SpriteDraw} (hd : d.Steady) : (m.drawAll [d, d]).reg flag =
    if ∃ px py, m.screen.pixel px py = false ∧ (m.spriteMask d).pixel px py = true then 1
    else 0 := by
  have hlit (px : Fin 64) (py : Fin 32) :
      ((m.execute d.instruction).screen.pixel px py = true ∧
        ((m.execute d.instruction).spriteMask d).pixel px py = true) ↔
      (m.screen.pixel px py = false ∧ (m.spriteMask d).pixel px py = true) := by
    rw [m.spriteMask_draw d hd, screen_draw, Bitmap.pixel_xor]
    apply and_congr_left
    intro hmask
    rw [hmask, Bool.xor_true, Bool.not_eq_true']
  refine ((m.execute d.instruction).reg_flag_draw_eq d).trans ?_
  simp only [hlit]

/-- Drawing is a group of flips: the order of the draws is without effect, those that occur
an even number of times are, and of the others each flips the pixels of its sprite. The flag
of a second draw tells of the pixels that the first has lit. -/
theorem drawAll_eq_odd_draws :
    (∀ (d : SpriteDraw) (px : Fin 64) (py : Fin 32), (m.spriteMask d).pixel px py = true ↔
      ∃ row < d.height.val, ∃ col < 8,
        (m.memory.read ((m.index.toNat + row) % 4096)).toNat.testBit (7 - col) = true ∧
          px.val + 64 * py.val = (m.reg d.x).toNat + col + 64 * ((m.reg d.y).toNat + row)) ∧
    (∀ ds : List SpriteDraw, (∀ d ∈ ds, d.Steady) →
      (∀ order, order.Perm ds → (m.drawAll order).screen = (m.drawAll ds).screen) ∧
      ∀ odds : List SpriteDraw, odds.Nodup → (∀ d, d ∈ odds ↔ Odd (ds.count d)) →
        (m.drawAll ds).screen = odds.foldl (fun s d => s.xor (m.spriteMask d)) m.screen) ∧
    ∀ d : SpriteDraw, d.Steady →
      (m.drawAll [d, d]).screen = m.screen ∧
      ((m.drawAll [d]).reg flag =
        if ∃ px py, m.screen.pixel px py = true ∧ (m.spriteMask d).pixel px py = true then 1
        else 0) ∧
      (m.drawAll [d, d]).reg flag =
        if ∃ px py, m.screen.pixel px py = false ∧ (m.spriteMask d).pixel px py = true then 1
        else 0 := by
  have hodd (ds : List SpriteDraw) (hds : ∀ d ∈ ds, d.Steady) (odds : List SpriteDraw)
      (hnodup : odds.Nodup) (hodds : ∀ d, d ∈ odds ↔ Odd (ds.count d)) :
      (m.drawAll ds).screen = odds.foldl (fun s d => s.xor (m.spriteMask d)) m.screen := by
    rw [m.screen_drawAll hds]
    apply Bitmap.ext_pixel
    intro px py
    rw [Bitmap.pixel_foldl_xor, Bitmap.pixel_foldl_xor,
      decide_eq_decide.2 (odd_countP_iff hnodup hodds _)]
  refine ⟨m.pixel_spriteMask_iff, ?_, ?_⟩
  · intro ds hds
    refine ⟨?_, hodd ds hds⟩
    intro order horder
    have hsteady : ∀ d ∈ order, d.Steady := fun d hd => hds d (horder.mem_iff.1 hd)
    rw [m.screen_drawAll hds, m.screen_drawAll hsteady]
    apply Bitmap.ext_pixel
    intro px py
    rw [Bitmap.pixel_foldl_xor, Bitmap.pixel_foldl_xor, horder.countP_eq]
  · intro d hd
    have htwice : ∀ e ∈ [d, d], e.Steady := by simp [hd]
    have heven (e : SpriteDraw) : e ∈ ([] : List SpriteDraw) ↔ Odd ([d, d].count e) := by
      by_cases h : d = e
      · simp [h, Nat.not_odd_iff_even, even_two]
      · simp [h]
    exact ⟨hodd [d, d] htwice [] List.nodup_nil heven, m.reg_flag_draw_eq d,
      m.reg_flag_draw_again hd⟩

def zeroDraw : SpriteDraw := ⟨0, 1, 5⟩

def upperDraw : SpriteDraw := ⟨2, 3, 3⟩

/-- The zero is drawn twice and its upper part once, in the middle or before: the upper part
alone is left. -/
theorem drawAll_eq_odd_draws_overlapping :
    let m := fresh ⟨0, 0⟩ true
    (m.drawAll [zeroDraw, upperDraw, zeroDraw]).screen =
        (m.drawAll [upperDraw, zeroDraw, zeroDraw]).screen ∧
      (m.drawAll [upperDraw, zeroDraw, zeroDraw]).screen = m.screen.xor (m.spriteMask upperDraw) ∧
      (m.drawAll [zeroDraw, zeroDraw]).screen = m.screen := by
  intro m
  obtain ⟨-, hlist, htwice⟩ := m.drawAll_eq_odd_draws
  obtain ⟨horder, hodd⟩ := hlist [upperDraw, zeroDraw, zeroDraw] (by decide)
  have hodds (d : SpriteDraw) :
      d ∈ [upperDraw] ↔ Odd ([upperDraw, zeroDraw, zeroDraw].count d) := by
    by_cases hmem : d ∈ [upperDraw, zeroDraw]
    · revert d
      decide
    · rw [List.mem_cons, List.mem_singleton, not_or] at hmem
      have hcount : [upperDraw, zeroDraw, zeroDraw].count d = 0 :=
        List.count_eq_zero.2 (by simp [hmem])
      rw [hcount, List.mem_singleton]
      exact iff_of_false hmem.1 (by decide)
  exact ⟨horder _ (by decide), hodd [upperDraw] (by decide) hodds,
    (htwice zeroDraw (by decide)).1⟩

end Machine

end ChipEight
