import ChipEight.Proofs.Instruction.Disassembly
import Mathlib.Data.List.Nodup

/-!
The kind of a word from its digits. The highest digit chooses a family of kinds, and the
family says how many of the lowest bits tell its kinds apart. The masks of the table keep
just these bits, so no word has two rows, and the first row that accepts a word gives the
kind that its digits tell, in whatever order the rows stand.
-/

namespace ChipEight

namespace Word

variable (w : Word)

theorem val_opcode : (opcode w).val = w.toNat / 2 ^ 12 := by
  have hlt := w.toNat_lt
  rw [opcode, Fin.val_ofNat]
  omega

theorem val_x : (x w).val = w.toNat / 2 ^ 8 % 2 ^ 4 := Fin.val_ofNat ..

theorem val_y : (y w).val = w.toNat / 2 ^ 4 % 2 ^ 4 := Fin.val_ofNat ..

theorem val_n : (n w).val = w.toNat % 2 ^ 4 := Fin.val_ofNat ..

theorem toNat_nn : (nn w).toNat = w.toNat % 2 ^ 8 := UInt16.toNat_toUInt8 w

theorem toNat_nnn : (nnn w).toNat = w.toNat % 2 ^ 12 := by
  rw [nnn, UInt16.toNat_ofNat']
  omega

/-- A mask of the highest digit and some of the lowest bits keeps nothing between them. -/
theorem toNat_and {mask : Word} {j : Nat} (hj : j ≤ 12)
    (hmask : mask.toNat = 0xF000 + (2 ^ j - 1)) :
    (w &&& mask).toNat = 2 ^ 12 * (opcode w).val + w.toNat % 2 ^ j := by
  have hpow : 2 ^ j ≤ 2 ^ 12 := Nat.pow_le_pow_right (by decide) hj
  have hone : 1 ≤ 2 ^ j := Nat.one_le_two_pow
  have hhigh : mask.toNat / 2 ^ 12 = 2 ^ 4 - 1 := by omega
  have hlow : mask.toNat % 2 ^ 12 = 2 ^ j - 1 := by omega
  have hdvd : 2 ^ j ∣ 2 ^ 12 := Nat.pow_dvd_pow 2 hj
  rw [← Nat.div_add_mod (w &&& mask).toNat (2 ^ 12), UInt16.toNat_and, Nat.and_div_two_pow,
    Nat.and_mod_two_pow, hhigh, hlow, Nat.and_two_pow_sub_one_eq_mod,
    Nat.and_two_pow_sub_one_eq_mod, Nat.mod_mod_of_dvd _ hdvd]
  rfl

def ofDigits (a b c d : Fin 16) : Word :=
  UInt16.ofNat (4096 * a.val + 256 * b.val + 16 * c.val + d.val)

section Digits

variable (a b c d : Fin 16)

theorem toNat_ofDigits :
    (ofDigits a b c d).toNat = 4096 * a.val + 256 * b.val + 16 * c.val + d.val := by
  rw [ofDigits, UInt16.toNat_ofNat']
  omega

@[simp] theorem opcode_ofDigits : opcode (ofDigits a b c d) = a := by
  apply Fin.ext
  rw [val_opcode, toNat_ofDigits]
  omega

@[simp] theorem x_ofDigits : x (ofDigits a b c d) = b := by
  apply Fin.ext
  rw [val_x, toNat_ofDigits]
  omega

@[simp] theorem y_ofDigits : y (ofDigits a b c d) = c := by
  apply Fin.ext
  rw [val_y, toNat_ofDigits]
  omega

@[simp] theorem n_ofDigits : n (ofDigits a b c d) = d := by
  apply Fin.ext
  rw [val_n, toNat_ofDigits]
  omega

@[simp] theorem toNat_nn_ofDigits : (nn (ofDigits a b c d)).toNat = 16 * c.val + d.val := by
  rw [toNat_nn, toNat_ofDigits]
  omega

end Digits

end Word

namespace Kind

def first (rows : List (Kind × Pattern)) (w : Word) : Kind :=
  match rows.find? (fun row => row.2.Accepts w) with
  | some row => row.1
  | none => unknown

/-- How many of the lowest bits tell the kinds apart that share a highest digit. -/
def tellingBits : Nat → Nat
  | 0x0 => 12
  | 0x5 | 0x8 | 0x9 => 4
  | 0xE | 0xF => 8
  | _ => 0

/-- The kind that the digits of a word tell: the highest one alone or with some of the
lowest ones. -/
def ofDigits? (w : Word) : Option Kind :=
  match (Word.opcode w).val with
  | 0x0 =>
    match (Word.nnn w).toNat with
    | 0x0E0 => some clear
    | 0x0EE => some ret
    | _ => none
  | 0x1 => some jump
  | 0x2 => some call
  | 0x3 => some skipEqualByte
  | 0x4 => some skipUnequalByte
  | 0x5 =>
    match (Word.n w).val with
    | 0x0 => some skipEqual
    | _ => none
  | 0x6 => some setByte
  | 0x7 => some addByte
  | 0x8 =>
    match (Word.n w).val with
    | 0x0 => some copy
    | 0x1 => some or
    | 0x2 => some and
    | 0x3 => some xor
    | 0x4 => some add
    | 0x5 => some subtract
    | 0x6 => some shiftRight
    | 0x7 => some subtractFrom
    | 0xE => some shiftLeft
    | _ => none
  | 0x9 =>
    match (Word.n w).val with
    | 0x0 => some skipUnequal
    | _ => none
  | 0xA => some setIndex
  | 0xB => some jumpOffset
  | 0xC => some random
  | 0xD => some draw
  | 0xE =>
    match (Word.nn w).toNat with
    | 0x9E => some skipPressed
    | 0xA1 => some skipReleased
    | _ => none
  | 0xF =>
    match (Word.nn w).toNat with
    | 0x07 => some readDelay
    | 0x0A => some awaitKey
    | 0x15 => some setDelay
    | 0x18 => some setSound
    | 0x1E => some addIndex
    | 0x29 => some pointGlyph
    | 0x33 => some storeDecimal
    | 0x55 => some storeRegisters
    | 0x65 => some loadRegisters
    | _ => none
  | _ => none

theorem tellingBits_le (digit : Nat) : tellingBits digit ≤ 12 := by
  unfold tellingBits
  split <;> decide

/-- Words of one family that agree in the bits that tell its kinds apart are of one kind. -/
theorem ofDigits?_congr {v w : Word} (hop : Word.opcode v = Word.opcode w)
    (hlow : v.toNat % 2 ^ tellingBits (Word.opcode w).val =
      w.toNat % 2 ^ tellingBits (Word.opcode w).val) : ofDigits? v = ofDigits? w := by
  unfold ofDigits?
  rw [hop]
  split
  all_goals
    rename_i hdigit
    simp only [hdigit, tellingBits] at hlow
  case h_1 => rw [Word.toNat_nnn, Word.toNat_nnn, hlow]
  case h_6 | h_9 | h_10 => rw [Word.val_n, Word.val_n, hlow]
  case h_15 | h_16 => rw [Word.toNat_nn, Word.toNat_nn, hlow]
  all_goals rfl

/-- The mask of a row keeps the bits that tell its kind, and its bits tell it. -/
theorem row_tells : ∀ row ∈ table, ofDigits? row.2.bits = some row.1 ∧
    row.2.mask.toNat = 0xF000 + (2 ^ tellingBits (Word.opcode row.2.bits).val - 1) := by
  decide

theorem table_nodup : table.Nodup := by decide

variable {w : Word} {k : Kind} {p : Pattern}

theorem ofDigits?_of_accepts (hrow : (k, p) ∈ table) (haccepts : p.Accepts w) :
    ofDigits? w = some k := by
  obtain ⟨hbits, hmask⟩ := row_tells (k, p) hrow
  have hj := tellingBits_le (Word.opcode p.bits).val
  have hand := Word.toNat_and w hj hmask
  rw [haccepts] at hand
  have hop : Word.opcode w = Word.opcode p.bits := by
    have hpow := Nat.pow_le_pow_right Nat.two_pos hj
    have hlt := Nat.mod_lt w.toNat (Nat.two_pow_pos (tellingBits (Word.opcode p.bits).val))
    apply Fin.ext
    rw [Word.val_opcode p.bits]
    omega
  have hlow : w.toNat % 2 ^ tellingBits (Word.opcode p.bits).val =
      p.bits.toNat % 2 ^ tellingBits (Word.opcode p.bits).val := by
    obtain ⟨c, hc⟩ := Nat.pow_dvd_pow 2 hj
    rw [hand, hc, Nat.mul_assoc, Nat.mul_add_mod, Nat.mod_mod]
  rw [ofDigits?_congr hop hlow, hbits]

theorem accepts_of_digits (j : Nat) {c d : Nat} (hrow : table.lookup k = some p) (hj : j ≤ 12)
    (hmask : p.mask.toNat = 0xF000 + (2 ^ j - 1)) (hop : (Word.opcode w).val = c)
    (hlow : w.toNat % 2 ^ j = d) (hbits : p.bits.toNat = 2 ^ 12 * c + d) :
    ∃ p, (k, p) ∈ table ∧ p.Accepts w := by
  obtain ⟨before, after, htable, -⟩ := List.lookup_eq_some_iff.1 hrow
  refine ⟨p, ?_, ?_⟩
  · rw [htable]
    exact List.mem_append_right before List.mem_cons_self
  · apply UInt16.toNat_inj.1
    rw [Word.toNat_and w hj hmask, hop, hlow, hbits]

theorem exists_row_of_ofDigits? (h : ofDigits? w = some k) :
    ∃ p, (k, p) ∈ table ∧ p.Accepts w := by
  unfold ofDigits? at h
  split at h
  -- the families by how many of their bits tell the kinds apart
  case h_1 hop =>
    rw [Word.toNat_nnn] at h
    split at h
    all_goals cases h
    all_goals exact accepts_of_digits 12 rfl (by decide) rfl hop ‹_› rfl
  case h_6 hop | h_9 hop | h_10 hop =>
    rw [Word.val_n] at h
    split at h
    all_goals cases h
    all_goals exact accepts_of_digits 4 rfl (by decide) rfl hop ‹_› rfl
  case h_15 hop | h_16 hop =>
    rw [Word.toNat_nn] at h
    split at h
    all_goals cases h
    all_goals exact accepts_of_digits 8 rfl (by decide) rfl hop ‹_› rfl
  case h_17 => cases h
  all_goals
    cases h
    exact accepts_of_digits 0 rfl (by decide) rfl ‹_› (Nat.mod_one _) rfl

theorem eq_of_accepts {r s : Kind × Pattern} (hr : r ∈ table) (hs : s ∈ table)
    (hrw : r.2.Accepts w) (hsw : s.2.Accepts w) : r = s := by
  have hkinds : some r.1 = some s.1 :=
    (ofDigits?_of_accepts hr hrw).symm.trans (ofDigits?_of_accepts hs hsw)
  exact table_inj r hr s hs (Option.some.inj hkinds)

/-- The first row that accepts a word gives the kind that its digits tell, wherever the row
stands. -/
theorem first_eq {rows : List (Kind × Pattern)} (hrows : rows.Perm table) (w : Word) :
    first rows w = (ofDigits? w).getD unknown := by
  unfold first
  cases hfound : rows.find? (fun row => row.2.Accepts w) with
  | some row =>
    have hmem : row ∈ table := hrows.mem_iff.1 (List.mem_of_find?_eq_some hfound)
    have haccepts := List.find?_some hfound
    rw [ofDigits?_of_accepts hmem (of_decide_eq_true haccepts)]
    rfl
  | none =>
    cases hdigits : ofDigits? w with
    | none => rfl
    | some k =>
      obtain ⟨p, hrow, haccepts⟩ := exists_row_of_ofDigits? hdigits
      have hnone := List.find?_eq_none.1 hfound (k, p) (hrows.mem_iff.2 hrow)
      exact absurd (decide_eq_true haccepts) hnone

theorem ofWord_eq (w : Word) : ofWord w = (ofDigits? w).getD unknown :=
  first_eq (List.Perm.refl table) w

theorem ofWord_of_digits (h : ofDigits? w = some k) : ofWord w = k := by
  rw [ofWord_eq, h]
  rfl

theorem ofWord_eq_unknown_iff (w : Word) : ofWord w = unknown ↔ ofDigits? w = none := by
  rw [ofWord_eq]
  cases hdigits : ofDigits? w with
  | none => exact iff_of_true rfl rfl
  | some k =>
    obtain ⟨p, hrow, -⟩ := exists_row_of_ofDigits? hdigits
    exact iff_of_false (row_ne_unknown (k, p) hrow) (Option.some_ne_none k)

end Kind

namespace Instruction

/-- An integer of 32 bits names the word of its low 16 bits. At most one row of the table
accepts the word, so its kind is that of the first row in any order of the rows. It is the
kind that the digits tell, and unknown if they tell none. The fields are the digits of the
number, each in its range. -/
theorem decoding_exact (i : Int) (hi : -2147483648 ≤ i ∧ i ≤ 2147483647) :
    ∃ w, Word.ofInt? i = some w ∧
      (∀ j, -2147483648 ≤ j ∧ j ≤ 2147483647 → j % 65536 = i % 65536 →
        Word.ofInt? j = some w) ∧
      (∀ (a b : Nat) (ha : a < Kind.table.length) (hb : b < Kind.table.length),
        Kind.table[a].2.Accepts w → Kind.table[b].2.Accepts w → a = b) ∧
      (∀ rows : List (Kind × Pattern), rows.Perm Kind.table →
        Kind.first rows w = Kind.ofWord w) ∧
      Kind.ofWord w = (Kind.ofDigits? w).getD .unknown ∧
      (Kind.ofWord w = .unknown ↔ Kind.ofDigits? w = none) ∧
      i % 65536 = 4096 * (Word.opcode w).val + (Word.nnn w).toNat ∧
      (Word.nnn w).toNat = 256 * (Word.x w).val + (Word.nn w).toNat ∧
      (Word.nn w).toNat = 16 * (Word.y w).val + (Word.n w).val ∧
      (Word.nnn w).toNat < 4096 ∧ (Word.nn w).toNat < 256 ∧
      (Word.opcode w).val < 16 ∧ (Word.x w).val < 16 ∧ (Word.y w).val < 16 ∧
      (Word.n w).val < 16 := by
  obtain ⟨w, hw⟩ := exists_ofInt? hi
  have hnumber := emod_eq_toNat hw
  have hlt := w.toNat_lt
  refine ⟨w, hw, ?_, ?_, fun rows hrows => (Kind.first_eq hrows w).trans (Kind.ofWord_eq w).symm,
    Kind.ofWord_eq w, Kind.ofWord_eq_unknown_iff w, ?_⟩
  · intro j hj hsame
    obtain ⟨v, hv⟩ := exists_ofInt? hj
    have hvw : v.toNat = w.toNat := by
      have hnumber' := emod_eq_toNat hv
      omega
    rw [hv, UInt16.toNat_inj.1 hvw]
  · intro a b ha hb haw hbw
    have hrow := Kind.eq_of_accepts (List.getElem_mem ha) (List.getElem_mem hb) haw hbw
    exact (Kind.table_nodup.getElem_inj_iff).1 hrow
  · rw [Word.val_opcode, Word.val_x, Word.val_y, Word.val_n, Word.toNat_nn, Word.toNat_nnn]
    omega

/-- A negative integer and a great one name the word of one sum, whose kind a table read
backwards gives too. -/
theorem decoding_exact_sum :
    Word.ofInt? (-0x7E1C) = some 0x81E4 ∧ Word.ofInt? 0x7FFF81E4 = some 0x81E4 ∧
      Kind.first Kind.table.reverse 0x81E4 = .add ∧ Kind.ofDigits? 0x81E4 = some .add := by
  obtain ⟨w, hw, hsame, -, horder, hkind, -⟩ := decoding_exact (-0x7E1C) (by decide)
  obtain rfl : 0x81E4 = w := Option.some.inj hw
  have hdigits : Kind.ofDigits? 0x81E4 = some .add := by decide
  rw [hdigits] at hkind
  exact ⟨hw, hsame 0x7FFF81E4 (by decide) (by decide),
    (horder _ (List.reverse_perm Kind.table)).trans hkind, hdigits⟩

end Instruction

end ChipEight
