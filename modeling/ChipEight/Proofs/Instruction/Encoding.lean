import ChipEight.Instruction
import Mathlib.Algebra.Group.Nat.Defs

/-!
What an instruction still tells of its word. The bits of the pattern follow from the
kind and the operands are the other bits, so two words of one instruction are the same
word. The shifts alone leave four bits unread: their words may differ there.
-/

namespace ChipEight

namespace Word

variable {v w mask : Word}

/-- Words that agree under a mask that keeps the high nibble agree in it. -/
theorem high_eq_of_and (h : v &&& mask = w &&& mask) (hmask : mask.toNat / 2 ^ 12 = 2 ^ 4 - 1) :
    v.toNat / 4096 = w.toNat / 4096 := by
  have hv : v.toNat / 2 ^ 12 < 2 ^ 4 := by have := v.toNat_lt; omega
  have hw : w.toNat / 2 ^ 12 < 2 ^ 4 := by have := w.toNat_lt; omega
  have hnibbles := congrArg (fun u => u.toNat / 2 ^ 12) h
  simp only [UInt16.toNat_and, Nat.and_div_two_pow, hmask, Nat.and_two_pow_sub_one_eq_mod,
    Nat.mod_eq_of_lt hv, Nat.mod_eq_of_lt hw] at hnibbles
  exact hnibbles

/-- Words that agree under a mask that keeps the low bits agree in them. -/
theorem low_eq_of_and (n : Nat) (h : v &&& mask = w &&& mask)
    (hmask : mask.toNat % 2 ^ n = 2 ^ n - 1) : v.toNat % 2 ^ n = w.toNat % 2 ^ n := by
  have hbits := congrArg (fun u => u.toNat % 2 ^ n) h
  simpa only [UInt16.toNat_and, Nat.and_mod_two_pow, hmask, Nat.and_two_pow_sub_one_eq_mod,
    Nat.mod_mod] using hbits

end Word

namespace Kind

/-- No kind has two patterns. -/
theorem table_inj : ∀ r ∈ table, ∀ s ∈ table, r.1 = s.1 → r = s := by decide

theorem row_ne_unknown : ∀ row ∈ table, row.1 ≠ unknown := by decide

theorem accepts_ofWord {w : Word} {k : Kind} {p : Pattern} (hrow : (k, p) ∈ table)
    (hw : ofWord w = k) : p.Accepts w := by
  unfold ofWord at hw
  split at hw
  case h_1 row hfound =>
    have hsame : row = (k, p) := table_inj row (List.mem_of_find?_eq_some hfound) (k, p) hrow hw
    have haccepts := List.find?_some hfound
    rw [hsame] at haccepts
    exact of_decide_eq_true haccepts
  case h_2 => exact absurd hw.symm (row_ne_unknown (k, p) hrow)

def mask (k : Kind) : Word := ((table.lookup k).map Pattern.mask).getD 0

section Agreement

variable {v w : Word} {k : Kind} (hv : ofWord v = k) (hw : ofWord w = k)

include hv hw

theorem and_mask_eq : v &&& k.mask = w &&& k.mask := by
  unfold mask
  cases hrow : table.lookup k with
  | none => rw [Option.map_none, Option.getD_none, UInt16.and_zero, UInt16.and_zero]
  | some p =>
    obtain ⟨before, after, htable, -⟩ := List.lookup_eq_some_iff.1 hrow
    have hmem : (k, p) ∈ table := by
      rw [htable]
      exact List.mem_append_right before List.mem_cons_self
    exact (accepts_ofWord hmem hv).trans (accepts_ofWord hmem hw).symm

/-- Two words of one kind agree in the high nibble if the kind is told by it. -/
theorem high_eq (hk : k.mask.toNat / 2 ^ 12 = 2 ^ 4 - 1) : v.toNat / 4096 = w.toNat / 4096 :=
  Word.high_eq_of_and (and_mask_eq hv hw) hk

theorem low_eq (n : Nat) (hk : k.mask.toNat % 2 ^ n = 2 ^ n - 1) :
    v.toNat % 2 ^ n = w.toNat % 2 ^ n :=
  Word.low_eq_of_and n (and_mask_eq hv hw) hk

end Agreement

end Kind

namespace Instruction

theorem ofWord_inj {v w : Word} (h : ofWord v = ofWord w)
    (hshift : (ofWord v).kind ∉ [Kind.shiftRight, Kind.shiftLeft]) : v = w := by
  have hkind : Kind.ofWord w = Kind.ofWord v := by rw [← kind_ofWord, ← kind_ofWord, h]
  have hv_lt := v.toNat_lt
  have hw_lt := w.toNat_lt
  rw [kind_ofWord] at hshift
  apply UInt16.toNat_inj.1
  -- what the kind does not tell is in the operands
  cases hv : Kind.ofWord v with
  | shiftRight | shiftLeft => simp [hv] at hshift
  | unknown =>
    simp only [ofWord, hkind, hv, unknown.injEq] at h
    rw [h]
  | clear | ret =>
    have hlow := Kind.low_eq hv (hkind.trans hv) 16 rfl
    omega
  | jump | call | setIndex | jumpOffset =>
    have hhigh := Kind.high_eq hv (hkind.trans hv) rfl
    simp only [ofWord, hkind, hv, jump.injEq, call.injEq, setIndex.injEq, jumpOffset.injEq,
      ← UInt16.toNat_inj, Word.nnn, UInt16.toNat_ofNat'] at h
    omega
  | skipEqualByte | skipUnequalByte | setByte | addByte | random =>
    have hhigh := Kind.high_eq hv (hkind.trans hv) rfl
    simp only [ofWord, hkind, hv, skipEqualByte.injEq, skipUnequalByte.injEq, setByte.injEq,
      addByte.injEq, random.injEq, Fin.ext_iff, Word.x, Fin.val_ofNat, ← UInt8.toNat_inj, Word.nn,
      UInt16.toNat_toUInt8] at h
    omega
  | draw =>
    have hhigh := Kind.high_eq hv (hkind.trans hv) rfl
    simp only [ofWord, hkind, hv, draw.injEq, Fin.ext_iff, Word.x, Word.y, Word.n,
      Fin.val_ofNat] at h
    omega
  | skipEqual | copy | or | and | xor | add | subtract | subtractFrom | skipUnequal =>
    have hhigh := Kind.high_eq hv (hkind.trans hv) rfl
    have hlow := Kind.low_eq hv (hkind.trans hv) 4 rfl
    simp only [ofWord, hkind, hv, skipEqual.injEq, copy.injEq, or.injEq, and.injEq, xor.injEq,
      add.injEq, subtract.injEq, subtractFrom.injEq, skipUnequal.injEq, Fin.ext_iff, Word.x,
      Word.y, Fin.val_ofNat] at h
    omega
  | skipPressed | skipReleased | readDelay | awaitKey | setDelay | setSound | addIndex
  | pointGlyph | storeDecimal | storeRegisters | loadRegisters =>
    have hhigh := Kind.high_eq hv (hkind.trans hv) rfl
    have hlow := Kind.low_eq hv (hkind.trans hv) 8 rfl
    simp only [ofWord, hkind, hv, skipPressed.injEq, skipReleased.injEq, readDelay.injEq,
      awaitKey.injEq, setDelay.injEq, setSound.injEq, addIndex.injEq, pointGlyph.injEq,
      storeDecimal.injEq, storeRegisters.injEq, loadRegisters.injEq, Fin.ext_iff, Word.x,
      Fin.val_ofNat] at h
    omega

end Instruction

end ChipEight
