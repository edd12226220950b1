import ChipEight.Proofs.Instruction.Decoding
import ChipEight.Proofs.Machine.Frame

/-!
Arithmetic on registers as arithmetic on integers. An operation gives a byte and a flag,
and the two together make up its exact value: a carry counts 256, a borrow is the flag
missing, and a shift moves one bit into the flag. The operands are read before anything
is written and the flag is written last, so it stays where the result has its place too.
-/

namespace ChipEight

/-- The operations that give a byte and a flag. -/
inductive FlagOperation where
  | add | subtract | shiftRight | subtractFrom | shiftLeft
  deriving DecidableEq, Repr

namespace FlagOperation

def digit : FlagOperation → Fin 16
  | add => 0x4
  | subtract => 0x5
  | shiftRight => 0x6
  | subtractFrom => 0x7
  | shiftLeft => 0xE

def kind : FlagOperation → Kind
  | add => .add
  | subtract => .subtract
  | shiftRight => .shiftRight
  | subtractFrom => .subtractFrom
  | shiftLeft => .shiftLeft

def Exact (vx vy result flag : Int) : FlagOperation → Prop
  | add => result + 256 * flag = vx + vy
  | subtract => result = vx - vy + 256 * (1 - flag)
  | shiftRight => 2 * result + flag = vx
  | subtractFrom => result = vy - vx + 256 * (1 - flag)
  | shiftLeft => result + 256 * flag = 2 * vx

theorem ofWord_ofDigits (op : FlagOperation) (x y : Register) :
    Kind.ofWord (Word.ofDigits 0x8 x y op.digit) = op.kind := by
  apply Kind.ofWord_of_digits
  rw [Kind.ofDigits?, Word.opcode_ofDigits, Word.n_ofDigits]
  cases op <;> rfl

variable (a b : UInt8)

theorem exact_add :
    add.Exact a.toNat b.toNat (a + b).toNat (decide (0xFF < a.toNat + b.toNat)).toNat := by
  have ha := a.toNat_lt
  have hb := b.toNat_lt
  rw [Exact, UInt8.toNat_add]
  by_cases hcarry : 0xFF < a.toNat + b.toNat
  · rw [decide_eq_true hcarry, Bool.toNat_true]
    omega
  · rw [decide_eq_false hcarry, Bool.toNat_false]
    omega

theorem exact_subtract :
    subtract.Exact a.toNat b.toNat (a - b).toNat (decide (b ≤ a)).toNat := by
  have ha := a.toNat_lt
  have hb := b.toNat_lt
  rw [Exact, UInt8.toNat_sub]
  by_cases hle : b ≤ a
  · rw [decide_eq_true hle, Bool.toNat_true]
    rw [UInt8.le_iff_toNat_le] at hle
    omega
  · rw [decide_eq_false hle, Bool.toNat_false]
    rw [UInt8.le_iff_toNat_le] at hle
    omega

theorem exact_subtractFrom :
    subtractFrom.Exact a.toNat b.toNat (b - a).toNat (decide (a ≤ b)).toNat :=
  exact_subtract b a

theorem toNat_beq_one {b : UInt8} (hb : b.toNat ≤ 1) : (b == 1).toNat = b.toNat := by
  by_cases hone : b = 1
  · rw [hone]
    rfl
  · have hne : b.toNat ≠ 1 := fun h => hone (UInt8.toNat_inj.1 h)
    rw [beq_false_of_ne hone, Bool.toNat_false]
    omega

theorem exact_shiftRight :
    shiftRight.Exact a.toNat b.toNat (a >>> 1).toNat (a &&& 1 == 1).toNat := by
  have hresult : (a >>> 1).toNat = a.toNat / 2 := Nat.shiftRight_eq_div_pow a.toNat 1
  have hbit : (a &&& 1).toNat = a.toNat % 2 := Nat.and_two_pow_sub_one_eq_mod a.toNat 1
  rw [Exact, toNat_beq_one (by omega), hresult, hbit]
  omega

theorem exact_shiftLeft :
    shiftLeft.Exact a.toNat b.toNat (a <<< 1).toNat (a >>> 7 == 1).toNat := by
  have ha := a.toNat_lt
  have hresult : (a <<< 1).toNat = a.toNat * 2 % 256 := by
    rw [UInt8.toNat_shiftLeft, Nat.shiftLeft_eq]
    rfl
  have hbit : (a >>> 7).toNat = a.toNat / 128 := Nat.shiftRight_eq_div_pow a.toNat 7
  rw [Exact, toNat_beq_one (by omega), hresult, hbit]
  omega

end FlagOperation

/-- In the last family the register of a word has no part in its kind. -/
theorem Kind.ofWord_of_register (x : Register) {c d : Fin 16} {k : Kind}
    (h : ofDigits? (Word.ofDigits 0xF 0 c d) = some k) :
    ofWord (Word.ofDigits 0xF x c d) = k := by
  apply ofWord_of_digits
  rw [← h]
  apply ofDigits?_congr
  · rw [Word.opcode_ofDigits, Word.opcode_ofDigits]
  · have hbits : tellingBits (Word.opcode (Word.ofDigits 0xF 0 c d)).val = 8 := by
      rw [Word.opcode_ofDigits]
      rfl
    rw [hbits, Word.toNat_ofDigits, Word.toNat_ofDigits]
    omega

namespace Machine

variable (m : Machine) (x y : Register)

/-- The machine after the instruction that four digits spell. -/
def executeDigits (a b c d : Fin 16) : Machine :=
  m.execute (Instruction.ofWord (Word.ofDigits a b c d))

theorem reg_flag_setRegFlag (b : UInt8) (on : Bool) :
    ((m.setRegFlag x b on).reg flag).toNat = on.toNat := by
  rw [setRegFlag, reg_setReg, if_pos rfl]
  cases on <;> rfl

theorem reg_setRegFlag (b : UInt8) (on : Bool) (hx : x ≠ flag) :
    (m.setRegFlag x b on).reg x = b := by
  rw [setRegFlag, reg_setReg_of_ne _ _ hx, reg_setReg, if_pos rfl]

/-- An operation writes a byte and a flag that make up its exact value. -/
theorem exists_executeDigits_eq (op : FlagOperation) : ∃ result on,
    op.Exact (m.reg x).toNat (m.reg y).toNat (UInt8.toNat result) (Bool.toNat on) ∧
      m.executeDigits 0x8 x y op.digit = m.setRegFlag x result on := by
  rw [executeDigits, Instruction.ofWord, op.ofWord_ofDigits, Word.x_ofDigits, Word.y_ofDigits]
  cases op with
  | add => exact ⟨_, _, FlagOperation.exact_add _ _, rfl⟩
  | subtract => exact ⟨_, _, FlagOperation.exact_subtract _ _, rfl⟩
  | shiftRight => exact ⟨_, _, FlagOperation.exact_shiftRight _ _, rfl⟩
  | subtractFrom => exact ⟨_, _, FlagOperation.exact_subtractFrom _ _, rfl⟩
  | shiftLeft => exact ⟨_, _, FlagOperation.exact_shiftLeft _ _, rfl⟩

theorem executeDigits_addIndex : m.executeDigits 0xF x 0x1 0xE = m.addIndex x := by
  rw [executeDigits, Instruction.ofWord, Kind.ofWord_of_register x (c := 0x1) (d := 0xE) rfl,
    Word.x_ofDigits]
  rfl

theorem executeDigits_addByte (c d : Fin 16) : m.executeDigits 0x7 x c d =
    m.setReg x (m.reg x + UInt8.ofNat (16 * c.val + d.val)) := by
  have hkind : Kind.ofWord (Word.ofDigits 0x7 x c d) = .addByte := by
    apply Kind.ofWord_of_digits
    rw [Kind.ofDigits?, Word.opcode_ofDigits]
    rfl
  rw [executeDigits, Instruction.ofWord, hkind, Word.x_ofDigits, ← Word.toNat_nn_ofDigits 0x7 x,
    UInt8.ofNat_toNat]
  rfl

/-- What an operation on two registers makes of a machine: the exact value, of which only
the flag is left if the result has no register of its own. -/
structure Operated (op : FlagOperation) (k : Machine) : Prop where
  exact : ∃ result : UInt8,
    op.Exact (m.reg x).toNat (m.reg y).toNat result.toNat (k.reg flag).toNat ∧
      (x ≠ flag → k.reg x = result)
  flag_le : (k.reg flag).toNat ≤ 1
  register : ∀ z, z ≠ x → z ≠ flag → k.reg z = m.reg z
  others : k = { m with registers := k.registers }

theorem operated_executeDigits (op : FlagOperation) :
    m.Operated x y op (m.executeDigits 0x8 x y op.digit) := by
  obtain ⟨result, on, hexact, hexecute⟩ := m.exists_executeDigits_eq x y op
  rw [hexecute]
  constructor
  case exact =>
    rw [reg_flag_setRegFlag]
    exact ⟨result, hexact, m.reg_setRegFlag x result on⟩
  case flag_le =>
    rw [reg_flag_setRegFlag]
    exact on.toNat_le
  case register =>
    intro z hx hflag
    apply m.reg_setRegFlag_of_ne
    rintro (rfl | rfl)
    · exact hx rfl
    · exact hflag rfl
  case others => rfl

/-- A sum and the difference that follows bring a register back, with the flag turned over. -/
theorem Operated.reg_of_add_subtract {m k l : Machine} {x y : Register}
    (hsum : m.Operated x y .add k) (hdifference : k.Operated x y .subtract l)
    (hxy : x ≠ y) (hx : x ≠ flag) (hy : y ≠ flag) :
    l.reg x = m.reg x ∧ (l.reg flag).toNat + (k.reg flag).toNat = 1 := by
  obtain ⟨sum, hexact, hplace⟩ := hsum.exact
  obtain ⟨difference, hexact', hplace'⟩ := hdifference.exact
  have hcarry := hsum.flag_le
  have hborrow := hdifference.flag_le
  have hold := (m.reg x).toNat_lt
  have hnew := (l.reg x).toNat_lt
  rw [FlagOperation.Exact, ← hplace hx] at hexact
  rw [FlagOperation.Exact, ← hplace' hx, hsum.register y hxy.symm hy] at hexact'
  constructor
  · apply UInt8.toNat_inj.1
    omega
  · omega

theorem reg_flag_addIndex : ((m.addIndex x).reg flag).toNat =
    if 0xFFF < m.index.toNat + (m.reg x).toNat then 1 else 0 := by
  have hflag : (m.addIndex x).reg flag =
      if 0xFFF < m.index.toNat + (m.reg x).toNat then 1 else 0 :=
    (m.reg_setReg flag flag _).trans (if_pos rfl)
  rw [hflag]
  split <;> rfl

theorem toNat_reg_addByte (c d : Fin 16) : ((m.executeDigits 0x7 x c d).reg x).toNat =
    ((m.reg x).toNat + (16 * c.val + d.val)) % 256 := by
  rw [executeDigits_addByte, reg_setReg, if_pos rfl, UInt8.toNat_add, UInt8.toNat_ofNat',
    Nat.add_mod_mod]

/-- Arithmetic is exact, whichever registers it names. An operation gives the byte and the
flag that make up its exact value. An addition to the index tells by its flag whether the
exact sum is no address, and an addition of a byte has no flag. Nothing else changes. So a
sum and the difference that follows bring a register back, with the flag turned over. -/
theorem arithmetic_exact :
    (∀ op : FlagOperation, m.Operated x y op (m.executeDigits 0x8 x y op.digit)) ∧
    ((m.executeDigits 0xF x 0x1 0xE).index.toNat = (m.index.toNat + (m.reg x).toNat) % 65536 ∧
      ((m.executeDigits 0xF x 0x1 0xE).reg flag).toNat =
        (if 0xFFF < m.index.toNat + (m.reg x).toNat then 1 else 0) ∧
      (∀ z, z ≠ flag → (m.executeDigits 0xF x 0x1 0xE).reg z = m.reg z) ∧
      m.executeDigits 0xF x 0x1 0xE =
        { m with
          registers := (m.executeDigits 0xF x 0x1 0xE).registers
          index := (m.executeDigits 0xF x 0x1 0xE).index }) ∧
    (∀ c d : Fin 16,
      ((m.executeDigits 0x7 x c d).reg x).toNat =
          ((m.reg x).toNat + (16 * c.val + d.val)) % 256 ∧
        (∀ z, z ≠ x → (m.executeDigits 0x7 x c d).reg z = m.reg z) ∧
        m.executeDigits 0x7 x c d =
          { m with registers := (m.executeDigits 0x7 x c d).registers }) ∧
    (x ≠ y → x ≠ flag → y ≠ flag →
      ((m.executeDigits 0x8 x y 0x4).executeDigits 0x8 x y 0x5).reg x = m.reg x ∧
        (((m.executeDigits 0x8 x y 0x4).executeDigits 0x8 x y 0x5).reg flag).toNat +
          ((m.executeDigits 0x8 x y 0x4).reg flag).toNat = 1) := by
  refine ⟨m.operated_executeDigits x y, ?_, ?_, ?_⟩
  · rw [executeDigits_addIndex]
    exact ⟨UInt16.toNat_ofNat', m.reg_flag_addIndex x, fun z hz => m.reg_setReg_of_ne _ hz, rfl⟩
  · intro c d
    refine ⟨m.toNat_reg_addByte x c d, ?_⟩
    rw [executeDigits_addByte]
    exact ⟨fun z hz => m.reg_setReg_of_ne _ hz, rfl⟩
  · exact (m.operated_executeDigits x y .add).reg_of_add_subtract
      ((m.executeDigits 0x8 x y 0x4).operated_executeDigits x y .subtract)

def brimful : Machine :=
  { Machine.fresh ⟨0, 0⟩ true with
    registers := #v[0, 100, 200, 0, 0, 0, 0, 0, 0, 0, 0, 0, 0, 0, 0, 200]
    index := 0xFFFE }

/-- Register F takes the carry of its own sum with register 2 and the overflow of its own
addition to the index. Register 1 comes back from a sum with register 2 that has a carry. -/
theorem arithmetic_exact_brimful :
    ((brimful.executeDigits 0x8 0xF 0x2 0x4).reg flag).toNat = 1 ∧
      (brimful.executeDigits 0xF 0xF 0x1 0xE).index.toNat = 198 ∧
      ((brimful.executeDigits 0xF 0xF 0x1 0xE).reg flag).toNat = 1 ∧
      ((brimful.executeDigits 0x8 1 2 0x4).executeDigits 0x8 1 2 0x5).reg 1 = 100 ∧
      (((brimful.executeDigits 0x8 1 2 0x4).executeDigits 0x8 1 2 0x5).reg flag).toNat = 0 := by
  obtain ⟨hdouble, ⟨hindex, hoverflow, -⟩, -, -⟩ := brimful.arithmetic_exact 0xF 0x2
  obtain ⟨hsum, -, -, hback⟩ := brimful.arithmetic_exact 1 2
  obtain ⟨hrestored, hturned⟩ := hback (by decide) (by decide) (by decide)
  have hcarry {x : Register} (hx : 256 ≤ (brimful.reg x).toNat + (brimful.reg 2).toNat)
      (hadd : brimful.Operated x 2 .add (brimful.executeDigits 0x8 x 2 0x4)) :
      ((brimful.executeDigits 0x8 x 2 0x4).reg flag).toNat = 1 := by
    obtain ⟨result, hexact, -⟩ := hadd.exact
    have hflag := hadd.flag_le
    have hlt := result.toNat_lt
    rw [FlagOperation.Exact] at hexact
    omega
  have hone := hcarry (by decide) (hsum .add)
  exact ⟨hcarry (by decide) (hdouble .add), hindex, hoverflow, hrestored, by omega⟩

end Machine

end ChipEight
