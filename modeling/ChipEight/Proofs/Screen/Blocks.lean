import Mathlib.Algebra.BigOperators.Group.List.Basic
import Mathlib.Data.Nat.Init

/-!
Lists that are put together from blocks of one size. The entry at a place is found by
division: the quotient is the number of its block, the remainder the place within the
block. Cutting such a list at every multiple of the size gives back its blocks.
-/

namespace ChipEight.Blocks

variable {α : Type} {size : Nat} {blocks : List (List α)}

def Sized (size : Nat) (blocks : List (List α)) : Prop := ∀ block ∈ blocks, block.length = size

theorem length_flatten (h : Sized size blocks) :
    blocks.flatten.length = blocks.length * size := by
  rw [List.length_flatten, List.map_congr_left h, List.map_const', List.sum_replicate,
    Nat.nsmul_eq_mul]

theorem getElem?_flatten (h : Sized size blocks) (hsize : 0 < size) (i : Nat) :
    blocks.flatten[i]? = (blocks[i / size]?).bind fun block => block[i % size]? := by
  induction blocks generalizing i with
  | nil => rfl
  | cons block rest ih =>
    obtain ⟨hblock, hrest⟩ := List.forall_mem_cons.1 h
    rw [List.flatten_cons]
    by_cases hi : i < size
    · rw [List.getElem?_append_left (by omega), Nat.div_eq_of_lt hi, Nat.mod_eq_of_lt hi]
      rfl
    · have hle : size ≤ i := Nat.le_of_not_lt hi
      rw [List.getElem?_append_right (by omega), hblock, ih hrest, ← Nat.mod_eq_sub_mod hle,
        Nat.div_eq_sub_div hsize hle, List.getElem?_cons_succ]

/-- The blocks of a list; what is left over at its end is no block. -/
def cut (size : Nat) (entries : List α) : List (List α) :=
  (List.range (entries.length / size)).map fun k => (entries.drop (k * size)).take size

theorem drop_flatten (h : Sized size blocks) (k : Nat) :
    blocks.flatten.drop (k * size) = (blocks.drop k).flatten := by
  induction k generalizing blocks with
  | zero => rw [Nat.zero_mul, List.drop_zero, List.drop_zero]
  | succ k ih =>
    cases blocks with
    | nil => simp only [List.flatten_nil, List.drop_nil]
    | cons block rest =>
      obtain ⟨hblock, hrest⟩ := List.forall_mem_cons.1 h
      rw [List.flatten_cons, List.drop_succ_cons, ← ih hrest, Nat.succ_mul, Nat.add_comm,
        ← List.drop_drop, List.drop_left' hblock]

theorem cut_flatten (h : Sized size blocks) (hsize : 0 < size) :
    cut size blocks.flatten = blocks := by
  have hcount : blocks.flatten.length / size = blocks.length := by
    rw [length_flatten h, Nat.mul_div_cancel _ hsize]
  apply List.ext_getElem
  · rw [cut, List.length_map, List.length_range, hcount]
  · intro k _ hk
    have hblock : blocks[k].length = size := h _ (List.getElem_mem hk)
    simp only [cut, List.getElem_map, List.getElem_range]
    rw [drop_flatten h, List.drop_eq_getElem_cons hk, List.flatten_cons,
      List.take_left' hblock]

end ChipEight.Blocks
