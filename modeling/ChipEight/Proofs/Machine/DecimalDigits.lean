import ChipEight.Proofs.Machine.Arithmetic
import ChipEight.Proofs.Machine.BlockTransfer

/-!
The decimal digits of a register in memory. Three digits make up any byte, and they are
stored in the three cells from the index on. Loading three registers from there finds them,
whichever register they came from: the digits are in memory before a register is replaced.
-/

namespace ChipEight

/-- The three cells from an address on hold the decimal digits of a byte, the hundreds
first. -/
structure Memory.HoldsDigits (m : Memory) (a : Nat) (b : UInt8) : Prop where
  digit : ∀ i < 3, (m.read ((a + i) % 4096)).toNat ≤ 9
  value : 100 * (m.read (a % 4096)).toNat + 10 * (m.read ((a + 1) % 4096)).toNat +
    (m.read ((a + 2) % 4096)).toNat = b.toNat

namespace Machine

variable (m : Machine) (x : Register)

theorem executeDigits_storeDecimal : m.executeDigits 0xF x 0x3 0x3 = m.storeDecimal x := by
  rw [executeDigits, Instruction.ofWord, Kind.ofWord_of_register x (c := 0x3) (d := 0x3) rfl,
    Word.x_ofDigits]
  rfl

theorem executeDigits_loadRegisters (last : Register) :
    m.executeDigits 0xF last 0x6 0x5 = m.execute (.loadRegisters last) := by
  rw [executeDigits, Instruction.ofWord, Kind.ofWord_of_register last (c := 0x6) (d := 0x5) rfl,
    Word.x_ofDigits]

theorem holdsDigits_storeDecimal :
    (m.storeDecimal x).memory.HoldsDigits m.index.toNat (m.reg x) := by
  have hlt := (m.reg x).toNat_lt
  have hlength : (decimalDigits (m.reg x)).length ≤ 4096 := by
    show 3 ≤ 4096
    decide
  have hread (i : Nat) {b : UInt8} (hb : (decimalDigits (m.reg x))[i]? = some b) :
      (m.storeDecimal x).memory.read ((m.index.toNat + i) % 4096) = b :=
    m.memory.read_writeBytes_add hlength hb
  have hhundreds := hread 0 rfl
  have htens := hread 1 rfl
  have hones := hread 2 rfl
  rw [Nat.add_zero] at hhundreds
  constructor
  case digit =>
    intro i hi
    obtain rfl | rfl | rfl : i = 0 ∨ i = 1 ∨ i = 2 := by omega
    · rw [Nat.add_zero, hhundreds, UInt8.toNat_ofNat']
      omega
    · rw [htens, UInt8.toNat_ofNat']
      omega
    · rw [hones, UInt8.toNat_ofNat']
      omega
  case value =>
    rw [hhundreds, htens, hones, UInt8.toNat_ofNat', UInt8.toNat_ofNat', UInt8.toNat_ofNat']
    omega

/-- The digits of a register are stored and nothing else changes, and they are loaded into
the first three registers, of whichever register they are. -/
theorem digits_stored_and_loaded :
    let stored := m.executeDigits 0xF x 0x3 0x3
    let loaded := stored.executeDigits 0xF 0x2 0x6 0x5
    (stored.memory.HoldsDigits m.index.toNat (m.reg x) ∧
      (∀ a, (∀ i < 3, (m.index.toNat + i) % 4096 ≠ a % 4096) →
        stored.memory.read a = m.memory.read a) ∧
      stored = { m with memory := stored.memory }) ∧
    (∀ r : Register, r ≤ 2 →
      loaded.reg r = stored.memory.read ((m.index.toNat + r.val) % 4096)) ∧
    (∀ r : Register, ¬ r ≤ 2 → loaded.reg r = m.reg r) ∧
    loaded.index.toNat = (m.index.toNat + 3) % 65536 ∧
    loaded = { stored with registers := loaded.registers, index := loaded.index } := by
  intro stored loaded
  have hstored : stored = m.storeDecimal x := m.executeDigits_storeDecimal x
  have hloaded : loaded = stored.execute (.loadRegisters 2) :=
    stored.executeDigits_loadRegisters 2
  rw [hloaded, hstored]
  refine ⟨⟨m.holdsDigits_storeDecimal x, ?_, rfl⟩, ?_, ?_, ?_, rfl⟩
  · intro a ha
    exact m.read_execute (.storeDecimal x) a ha
  · intro r hr
    exact (m.storeDecimal x).reg_loadRegisters_of_le hr
  · intro r hr
    exact (m.storeDecimal x).reg_loadRegisters 2 r hr
  · exact (m.storeDecimal x).toNat_indexBehind 2

def beforeLastCells : Machine :=
  { Machine.fresh ⟨0, 0⟩ true with
    registers := #v[9, 207, 9, 9, 0, 0, 0, 0, 0, 0, 0, 0, 0, 0, 0, 0]
    index := 0xFFFE }

/-- The digits of register 1 go around the end of the memory. Loading them puts one of them
into register 1 itself and takes the index around its own end. -/
theorem digits_stored_and_loaded_aroundEnd :
    let stored := beforeLastCells.executeDigits 0xF 1 0x3 0x3
    let loaded := stored.executeDigits 0xF 0x2 0x6 0x5
    (stored.memory.read 0).toNat = 7 ∧ stored.memory.read 1 = beforeLastCells.memory.read 1 ∧
      (loaded.reg 0).toNat = 2 ∧ (loaded.reg 1).toNat = 0 ∧ loaded.reg 3 = 9 ∧
      loaded.index.toNat = 1 := by
  intro stored loaded
  obtain ⟨⟨hdigits, hother, -⟩, hloaded, hkept, hindex, -⟩ :=
    beforeLastCells.digits_stored_and_loaded 1
  have hhundreds := hdigits.digit 0 (by decide)
  have htens := hdigits.digit 1 (by decide)
  have hones := hdigits.digit 2 (by decide)
  have hvalue : 100 * (stored.memory.read 4094).toNat + 10 * (stored.memory.read 4095).toNat +
      (stored.memory.read 0).toNat = 207 := hdigits.value
  change (stored.memory.read 4094).toNat ≤ 9 at hhundreds
  change (stored.memory.read 4095).toNat ≤ 9 at htens
  change (stored.memory.read 0).toNat ≤ 9 at hones
  have hfirst : loaded.reg 0 = stored.memory.read 4094 := hloaded 0 (by decide)
  have hsecond : loaded.reg 1 = stored.memory.read 4095 := hloaded 1 (by decide)
  rw [hfirst, hsecond]
  exact ⟨by omega, hother 1 (by decide), by omega, by omega, hkept 3 (by decide), hindex⟩

end Machine

end ChipEight
