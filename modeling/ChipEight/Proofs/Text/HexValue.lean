import ChipEight.Text.Hex
import Mathlib.Algebra.Group.Nat.Defs

/-!
Numbers read back from their texts in base sixteen. Zeros in front do not count, so a
number is read back whatever width its text was padded to, and with its sign if it has
one. Hence different numbers have different texts, and such a text holds nothing but
digits and at most a sign.
-/

namespace ChipEight.Text

def hexDigitValue (c : Char) : Nat := if c.isDigit then c.toNat - 48 else c.toNat - 55

def hexValue (chars : List Char) : Nat := chars.foldl (fun n c => 16 * n + hexDigitValue c) 0

def hexSignedValue (chars : List Char) : Int :=
  if chars.head? = some '-' then -(hexValue chars.tail) else hexValue chars

def hexAlphabet : List Char := "0123456789ABCDEF".toList

theorem upper_digitChar {n : Nat} (hn : n < 16) :
    hexDigitValue n.digitChar.toUpper = n ∧ n.digitChar.toUpper ∈ hexAlphabet := by
  revert n
  decide

theorem hexDigits_of_lt {n : Nat} (hn : n < 16) : hexDigits n = [n.digitChar.toUpper] := by
  rw [hexDigits, Nat.toDigits_of_lt_base hn, List.map_singleton]

theorem hexDigits_of_le {n : Nat} (hn : 16 ≤ n) :
    hexDigits n = hexDigits (n / 16) ++ [(n % 16).digitChar.toUpper] := by
  rw [hexDigits, Nat.toDigits_of_base_le (by decide) hn, List.map_append, List.map_singleton,
    hexDigits]

theorem hexValue_concat (chars : List Char) (c : Char) :
    hexValue (chars ++ [c]) = 16 * hexValue chars + hexDigitValue c := by
  rw [hexValue, List.foldl_append]
  rfl

theorem hexValue_hexDigits (n : Nat) : hexValue (hexDigits n) = n := by
  induction n using Nat.strongRecOn with
  | ind n ih =>
    rcases Nat.lt_or_ge n 16 with hlt | hge
    · rw [hexDigits_of_lt hlt]
      simpa [hexValue] using (upper_digitChar hlt).1
    · have hlast : n % 16 < 16 := Nat.mod_lt n (by decide)
      rw [hexDigits_of_le hge, hexValue_concat, ih (n / 16) (by omega), (upper_digitChar hlast).1]
      omega

theorem mem_hexDigits {n : Nat} {c : Char} (hc : c ∈ hexDigits n) : c ∈ hexAlphabet := by
  induction n using Nat.strongRecOn with
  | ind n ih =>
    rcases Nat.lt_or_ge n 16 with hlt | hge
    · rw [hexDigits_of_lt hlt, List.mem_singleton] at hc
      rw [hc]
      exact (upper_digitChar hlt).2
    · rw [hexDigits_of_le hge, List.mem_append, List.mem_singleton] at hc
      rcases hc with hfirst | hlast
      · exact ih (n / 16) (by omega) hfirst
      · rw [hlast]
        exact (upper_digitChar (Nat.mod_lt n (by decide))).2

theorem toList_hex (width n : Nat) :
    (hex width n).toList =
      List.replicate (width - (hexDigits n).length) '0' ++ hexDigits n := by
  rw [hex, String.toList_ofList, List.leftpad]

theorem hexValue_zeros_append (count : Nat) (chars : List Char) :
    hexValue (List.replicate count '0' ++ chars) = hexValue chars := by
  induction count with
  | zero => rfl
  | succ count ih => exact ih

theorem hexValue_hex (width n : Nat) : hexValue (hex width n).toList = n := by
  rw [toList_hex, hexValue_zeros_append, hexValue_hexDigits]

theorem mem_hex {width n : Nat} {c : Char} (hc : c ∈ (hex width n).toList) : c ∈ hexAlphabet := by
  rw [toList_hex, List.mem_append] at hc
  rcases hc with hzero | hdigit
  · rw [List.eq_of_mem_replicate hzero]
    decide
  · exact mem_hexDigits hdigit

theorem hexSignedValue_hexSigned (width : Nat) (i : Int) :
    hexSignedValue (hexSigned width i).toList = i := by
  unfold hexSigned
  split
  case isTrue hneg =>
    rw [String.toList_append]
    change -((hexValue (hex (width - 1) i.natAbs).toList : Nat) : Int) = i
    rw [hexValue_hex]
    omega
  case isFalse hneg =>
    have hunsigned : (hex width i.natAbs).toList.head? ≠ some '-' := by
      intro hhead
      exact absurd (mem_hex (List.mem_of_head? hhead)) (by decide)
    rw [hexSignedValue, if_neg hunsigned, hexValue_hex]
    omega

theorem hexSigned_inj {width : Nat} {i j : Int} (h : hexSigned width i = hexSigned width j) :
    i = j := by
  rw [← hexSignedValue_hexSigned width i, h, hexSignedValue_hexSigned]

theorem mem_hexSigned {width : Nat} {i : Int} {c : Char} (hc : c ∈ (hexSigned width i).toList) :
    c = '-' ∨ c ∈ hexAlphabet := by
  unfold hexSigned at hc
  split at hc
  case isTrue =>
    rw [String.toList_append, List.mem_append] at hc
    rcases hc with hsign | hdigit
    · exact Or.inl (List.mem_singleton.1 hsign)
    · exact Or.inr (mem_hex hdigit)
  case isFalse => exact Or.inr (mem_hex hc)

end ChipEight.Text
