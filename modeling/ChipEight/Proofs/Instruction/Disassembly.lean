import ChipEight.Machine.Step
import ChipEight.Proofs.Instruction.Encoding
import ChipEight.Proofs.Instruction.Reading

/-!
What the text of an integer says about the instruction that it names. The text of a
known word is that of its instruction, and the text of any other word shows the integer
itself. So integers with one text do the same to every machine: they name one word, or
two words of one shift that differ where a shift reads nothing. Data can be told from
instructions by its mnemonic.
-/

namespace ChipEight.Instruction

open Text

def lineParts (i : Int) : Instruction → String × List String
  | unknown _ => ("DW", [hexSigned 4 i])
  | instruction => instruction.parts

/-- An integer whose word shifts a register, in the direction that the last digit tells. -/
def IsShift (last : Nat) (x : Register) (i : Int) : Prop :=
  ∃ y : Fin 16, i % 65536 = 0x8000 + 256 * x.val + 16 * y.val + last

theorem isWord_hexSigned (width : Nat) (i : Int) : IsWord (hexSigned width i) := by
  constructor
  · intro h
    exact absurd (mem_hexSigned h) (by decide)
  · intro h
    exact absurd (mem_hexSigned h) (by decide)

theorem isWord_lineParts (n : Int) (i : Instruction) :
    ∀ w ∈ (lineParts n i).1 :: (lineParts n i).2, IsWord w := by
  cases i with
  | unknown v =>
    rw [lineParts, List.forall_mem_cons, List.forall_mem_singleton]
    exact ⟨(by decide : IsWord "DW"), isWord_hexSigned 4 n⟩
  | _ => exact isWord_parts _

theorem lineParts_of_known (n : Int) {i : Instruction} (h : i.kind ≠ .unknown) :
    lineParts n i = i.parts := by
  cases i with
  | unknown v => exact absurd rfl h
  | _ => rfl

theorem exists_eq_unknown {i : Instruction} (h : i.kind = .unknown) : ∃ v, i = unknown v := by
  cases i with
  | unknown v => exact ⟨v, rfl⟩
  | _ => exact Kind.noConfusion h

section Text

variable {n : Int} {w : Word} {text : String} (hw : Word.ofInt? n = some w)

include hw

theorem disassemble?_eq :
    disassemble? n = some (joinLine (lineParts n (ofWord w)).1 (lineParts n (ofWord w)).2) := by
  rw [disassemble?, hw, Option.map_some]
  cases ofWord w <;> rfl

theorem lineWords_of_disassemble? (h : disassemble? n = some text) :
    lineWords text = (lineParts n (ofWord w)).1 :: (lineParts n (ofWord w)).2 := by
  rw [disassemble?_eq hw] at h
  cases h
  exact lineWords_joinLine (isWord_lineParts n (ofWord w))

theorem ofLine?_of_known (h : disassemble? n = some text) (hknown : (ofWord w).kind ≠ .unknown) :
    ofLine? text = some (ofWord w) := by
  rw [ofLine?, lineWords_of_disassemble? hw h, lineParts_of_known n hknown]
  exact ofParts?_parts _ hknown

theorem lineWords_of_unknown (h : disassemble? n = some text)
    (hunknown : (ofWord w).kind = .unknown) : lineWords text = ["DW", hexSigned 4 n] := by
  obtain ⟨v, hv⟩ := exists_eq_unknown hunknown
  rw [lineWords_of_disassemble? hw h, hv]
  rfl

theorem ofLine?_of_unknown (h : disassemble? n = some text)
    (hunknown : (ofWord w).kind = .unknown) : ofLine? text = none := by
  rw [ofLine?, lineWords_of_unknown hw h hunknown]
  rfl

/-- Only data starts with the mnemonic of data. -/
theorem data_prefix_iff (h : disassemble? n = some text) :
    "DW ".toList <+: text.toList ↔ (ofWord w).kind = .unknown := by
  constructor
  · rintro ⟨rest, hrest⟩
    by_cases hknown : (ofWord w).kind = .unknown
    · exact hknown
    have hwords : lineWords text =
        "DW" :: ((rest.filter (· != ',')).splitOn ' ').map String.ofList := by
      rw [lineWords, ← hrest, List.filter_append]
      exact congrArg (List.map String.ofList)
        (List.splitOn_append_cons_self_of_not_mem (by decide : ' ' ∉ ['D', 'W']) _)
    have hread := ofLine?_of_known hw h hknown
    simp only [ofLine?, hwords, ofParts?_data] at hread
    cases hread
  · intro hunknown
    obtain ⟨v, hv⟩ := exists_eq_unknown hunknown
    rw [disassemble?_eq hw, hv] at h
    cases h
    simp only [lineParts, joinLine, String.toList_append]
    exact List.prefix_append _ _

end Text

/-- Texts tell known instructions apart, and data by its integers. -/
theorem ofWord_eq_of_disassemble? {a b : Int} {v w : Word} {text : String}
    (hv : Word.ofInt? a = some v) (hw : Word.ofInt? b = some w)
    (ha : disassemble? a = some text) (hb : disassemble? b = some text) :
    ofWord v = ofWord w ∧ ((ofWord v).kind = .unknown → a = b) := by
  by_cases hkv : (ofWord v).kind = .unknown
  · by_cases hkw : (ofWord w).kind = .unknown
    · have hwords := lineWords_of_unknown hv ha hkv
      rw [lineWords_of_unknown hw hb hkw] at hwords
      have hab : a = b := by
        simp only [List.cons.injEq, and_true, true_and] at hwords
        exact (hexSigned_inj hwords).symm
      refine ⟨?_, fun _ => hab⟩
      rw [hab, hw] at hv
      cases hv
      rfl
    · have hread := ofLine?_of_known hw hb hkw
      rw [ofLine?_of_unknown hv ha hkv] at hread
      cases hread
  · have hread := ofLine?_of_known hv ha hkv
    refine ⟨?_, fun hunknown => absurd hunknown hkv⟩
    by_cases hkw : (ofWord w).kind = .unknown
    · rw [ofLine?_of_unknown hw hb hkw] at hread
      cases hread
    · rw [ofLine?_of_known hw hb hkw] at hread
      exact (Option.some.inj hread).symm

theorem emod_eq_toNat {n : Int} {w : Word} (hw : Word.ofInt? n = some w) :
    n % 65536 = w.toNat := by
  unfold Word.ofInt? at hw
  split at hw
  case isTrue =>
    cases hw
    rw [UInt16.ofInt, UInt16.toNat_ofNat']
    omega
  case isFalse => cases hw

/-- The words of a shift differ in the register that is not read. -/
theorem isShift_of_kind {n : Int} {v w : Word} {k : Kind} (hw : Word.ofInt? n = some w)
    (hk : Kind.ofWord w = k) (hmodel : Kind.ofWord v = k) (hmask : k.mask = 0xF00F)
    (hv : v.toNat = 0x8000 + v.toNat % 16) : IsShift (v.toNat % 16) (Word.x w) n := by
  have hhigh := Kind.high_eq hk hmodel (by rw [hmask]; rfl)
  have hlow := Kind.low_eq hk hmodel 4 (by rw [hmask]; rfl)
  refine ⟨Word.y w, ?_⟩
  rw [emod_eq_toNat hw]
  simp only [Word.x, Word.y, Fin.val_ofNat]
  omega

/-- Words of one instruction are one word, but for shifts of one register. -/
theorem congruent_or_isShift {a b : Int} {v w : Word} (hv : Word.ofInt? a = some v)
    (hw : Word.ofInt? b = some w) (h : ofWord v = ofWord w) :
    a % 65536 = b % 65536 ∨
      ∃ x, IsShift 6 x a ∧ IsShift 6 x b ∨ IsShift 14 x a ∧ IsShift 14 x b := by
  by_cases hshift : (ofWord v).kind ∈ [Kind.shiftRight, Kind.shiftLeft]
  · right
    have hkind : Kind.ofWord w = Kind.ofWord v := by rw [← kind_ofWord, ← kind_ofWord, h]
    rw [kind_ofWord, List.mem_cons, List.mem_singleton] at hshift
    refine ⟨Word.x v, ?_⟩
    rcases hshift with hk | hk
    · left
      have hx : Word.x v = Word.x w := by
        simpa only [ofWord, hkind, hk, shiftRight.injEq] using h
      refine ⟨isShift_of_kind hv hk (v := 0x8006) rfl rfl rfl, ?_⟩
      rw [hx]
      exact isShift_of_kind hw (hkind.trans hk) (v := 0x8006) rfl rfl rfl
    · right
      have hx : Word.x v = Word.x w := by
        simpa only [ofWord, hkind, hk, shiftLeft.injEq] using h
      refine ⟨isShift_of_kind hv hk (v := 0x800E) rfl rfl rfl, ?_⟩
      rw [hx]
      exact isShift_of_kind hw (hkind.trans hk) (v := 0x800E) rfl rfl rfl
  · left
    rw [emod_eq_toNat hv, emod_eq_toNat hw, ofWord_inj h hshift]

theorem exists_ofInt? {n : Int} (h : -2147483648 ≤ n ∧ n ≤ 2147483647) :
    ∃ w, Word.ofInt? n = some w := by
  rw [Word.ofInt?, if_pos h]
  exact ⟨_, rfl⟩

/-- Integers of 32 bits have texts. Those with one text name instructions that do the
same to every machine, and they are congruent or shift one register in one direction.
The text is that of data exactly if a step that meets the word finds it unknown. -/
theorem disassembly_faithful (a b : Int) (ha : -2147483648 ≤ a ∧ a ≤ 2147483647)
    (hb : -2147483648 ≤ b ∧ b ≤ 2147483647) :
    ∃ v w s t, Word.ofInt? a = some v ∧ Word.ofInt? b = some w ∧
      disassemble? a = some s ∧ disassemble? b = some t ∧
      (s = t →
        (∀ m : Machine, m.execute (ofWord v) = m.execute (ofWord w)) ∧
        (a % 65536 = b % 65536 ∨
          ∃ x, IsShift 6 x a ∧ IsShift 6 x b ∨ IsShift 14 x a ∧ IsShift 14 x b)) ∧
      ∀ m : Machine, m.memory.word m.pc.toNat = v →
        ("DW ".toList <+: s.toList ↔ m.step.2.unknown = true) := by
  obtain ⟨v, hv⟩ := exists_ofInt? ha
  obtain ⟨w, hw⟩ := exists_ofInt? hb
  have hs := disassemble?_eq hv
  have ht := disassemble?_eq hw
  refine ⟨v, w, _, _, hv, hw, hs, ht, ?_, ?_⟩
  · intro htext
    rw [← htext] at ht
    have hsame := (ofWord_eq_of_disassemble? hv hw hs ht).1
    exact ⟨fun m => congrArg m.execute hsame, congruent_or_isShift hv hw hsame⟩
  · intro m hword
    have hunknown : m.step.2.unknown = ((ofWord v).kind == .unknown) := by
      rw [← hword]
      rfl
    rw [data_prefix_iff hv hs, hunknown, beq_iff_eq]

def shiftingMachine : Machine :=
  let fresh := Machine.fresh ⟨0, 0⟩ true
  { fresh with memory := fresh.memory.writeBytes Program.origin [0x81, 0x2E] }

/-- A negative integer with the text of that word names another word, but the same
instruction, and no data. -/
theorem disassembly_faithful_shifts :
    disassemble? 0x812E = some "SHL V1" ∧ disassemble? (-0x7E12) = some "SHL V1" ∧
      (∀ m : Machine, m.execute (ofWord 0x812E) = m.execute (ofWord 0x81EE)) ∧
      shiftingMachine.step.2.unknown = false := by
  have hs : disassemble? 0x812E = some "SHL V1" := by rfl
  have ht : disassemble? (-0x7E12) = some "SHL V1" := by rfl
  obtain ⟨v, w, s, t, hv, hw, hs', ht', hsame, hdata⟩ :=
    disassembly_faithful 0x812E (-0x7E12) (by decide) (by decide)
  obtain rfl : 0x812E = v := Option.some.inj hv
  obtain rfl : 0x81EE = w := Option.some.inj hw
  obtain rfl : "SHL V1" = s := Option.some.inj (hs.symm.trans hs')
  obtain rfl : "SHL V1" = t := Option.some.inj (ht.symm.trans ht')
  have hnext : shiftingMachine.memory.word shiftingMachine.pc.toNat = 0x812E := by
    decide +kernel
  have hknown := hdata shiftingMachine hnext
  refine ⟨hs, ht, (hsame rfl).1, ?_⟩
  rw [← Bool.not_eq_true, ← hknown]
  decide

end ChipEight.Instruction
