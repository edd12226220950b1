import ChipEight.Instruction.Assembly
import ChipEight.Proofs.Text.HexValue

/-!
Assembly text read back. A line is cut into its words, the mnemonic tells what the
operands are, and each operand is read as a register or a number. Every instruction but
the words of no known kind is read back from its text, so no two of them share a text,
although a mnemonic may have many forms. A line of data starts with a mnemonic that no
instruction has.
-/

namespace ChipEight.Instruction

open Text

def lineWords (line : String) : List String :=
  ((line.toList.filter (· != ',')).splitOn ' ').map String.ofList

def IsWord (word : String) : Prop := ' ' ∉ word.toList ∧ ',' ∉ word.toList

instance (word : String) : Decidable (IsWord word) := inferInstanceAs (Decidable (_ ∧ _))

theorem filter_of_isWord {word : String} (h : IsWord word) :
    word.toList.filter (· != ',') = word.toList := by
  rw [List.filter_eq_self]
  intro c hc
  rw [bne_iff_ne]
  intro hcomma
  exact h.2 (hcomma ▸ hc)

theorem filter_intercalate {words : List String} (h : ∀ w ∈ words, IsWord w) :
    (String.intercalate ", " words).toList.filter (· != ',') =
      [' '].intercalate (words.map String.toList) := by
  induction words with
  | nil => rfl
  | cons w rest ih =>
    obtain ⟨hw, hrest⟩ := List.forall_mem_cons.1 h
    cases rest with
    | nil =>
      rw [String.intercalate_singleton, filter_of_isWord hw]
      simp
    | cons next more =>
      rw [String.intercalate_cons_cons, String.toList_append, String.toList_append,
        List.filter_append, List.filter_append, filter_of_isWord hw, ih hrest]
      simp [List.intercalate, List.append_assoc]

theorem filter_joinLine {mnemonic : String} {operands : List String}
    (h : ∀ w ∈ mnemonic :: operands, IsWord w) :
    (joinLine mnemonic operands).toList.filter (· != ',') =
      [' '].intercalate ((mnemonic :: operands).map String.toList) := by
  obtain ⟨hfirst, hrest⟩ := List.forall_mem_cons.1 h
  cases operands with
  | nil =>
    rw [joinLine, filter_of_isWord hfirst]
    simp
  | cons o more =>
    rw [joinLine, String.toList_append, String.toList_append, List.filter_append,
      List.filter_append, filter_of_isWord hfirst, filter_intercalate hrest]
    · simp [List.intercalate, List.append_assoc]
    · simp

theorem lineWords_joinLine {mnemonic : String} {operands : List String}
    (h : ∀ w ∈ mnemonic :: operands, IsWord w) :
    lineWords (joinLine mnemonic operands) = mnemonic :: operands := by
  have hblank : ∀ l ∈ (mnemonic :: operands).map String.toList, ' ' ∉ l := by
    intro l hl
    obtain ⟨w, hw, rfl⟩ := List.mem_map.1 hl
    exact (h w hw).1
  rw [lineWords, filter_joinLine h, List.splitOn_intercalate ' ' hblank (by simp), List.map_map]
  simp [Function.comp_def]

/-- Whether an operand is a number. Most other operands have a letter that is no digit. -/
def isNumber (operand : String) : Bool := operand.toList.all hexAlphabet.contains

def isRegister (operand : String) : Bool := operand.toList.head? == some 'V'

def readRegister (operand : String) : Register := Fin.ofNat 16 (hexValue operand.toList.tail)

def readByte (operand : String) : UInt8 := UInt8.ofNat (hexValue operand.toList)

def readAddress (operand : String) : Word := UInt16.ofNat (hexValue operand.toList)

def readSource (x : Register) (source : String) : Instruction :=
  if isNumber source then setByte x (readByte source)
  else if isRegister source then copy x (readRegister source)
  else
    match source with
    | "DT" => readDelay x
    | "K" => awaitKey x
    | _ => loadRegisters x

/-- The instruction that loads a target from a source. The letters `F` and `B` are
targets here, although they could be numbers elsewhere. -/
def readLoad (target source : String) : Instruction :=
  if isRegister target then readSource (readRegister target) source
  else
    match target with
    | "I" => setIndex (readAddress source)
    | "DT" => setDelay (readRegister source)
    | "ST" => setSound (readRegister source)
    | "F" => pointGlyph (readRegister source)
    | "B" => storeDecimal (readRegister source)
    | _ => storeRegisters (readRegister source)

def readAdd (target source : String) : Instruction :=
  if !isRegister target then addIndex (readRegister source)
  else if isNumber source then addByte (readRegister target) (readByte source)
  else add (readRegister target) (readRegister source)

def readSkip (equal : Bool) (x operand : String) : Instruction :=
  match equal, isNumber operand with
  | true, true => skipEqualByte (readRegister x) (readByte operand)
  | true, false => skipEqual (readRegister x) (readRegister operand)
  | false, true => skipUnequalByte (readRegister x) (readByte operand)
  | false, false => skipUnequal (readRegister x) (readRegister operand)

def ofOperand? (mnemonic operand : String) : Option Instruction :=
  match mnemonic with
  | "JP" => some (jump (readAddress operand))
  | "CALL" => some (call (readAddress operand))
  | "SHR" => some (shiftRight (readRegister operand))
  | "SHL" => some (shiftLeft (readRegister operand))
  | "SKP" => some (skipPressed (readRegister operand))
  | "SKNP" => some (skipReleased (readRegister operand))
  | _ => none

def ofOperands? (mnemonic target source : String) : Option Instruction :=
  match mnemonic with
  | "JP" => some (jumpOffset (readAddress source))
  | "SE" => some (readSkip true target source)
  | "SNE" => some (readSkip false target source)
  | "LD" => some (readLoad target source)
  | "ADD" => some (readAdd target source)
  | "OR" => some (or (readRegister target) (readRegister source))
  | "AND" => some (and (readRegister target) (readRegister source))
  | "XOR" => some (xor (readRegister target) (readRegister source))
  | "SUB" => some (subtract (readRegister target) (readRegister source))
  | "SUBN" => some (subtractFrom (readRegister target) (readRegister source))
  | "RND" => some (random (readRegister target) (readByte source))
  | _ => none

def ofParts? (mnemonic : String) : List String → Option Instruction
  | [] => if mnemonic = "CLS" then some clear else if mnemonic = "RET" then some ret else none
  | [o] => ofOperand? mnemonic o
  | [t, s] => ofOperands? mnemonic t s
  | [x, y, n] =>
    if mnemonic = "DRW" then
      some (draw (readRegister x) (readRegister y) (Fin.ofNat 16 (hexValue n.toList)))
    else none
  | _ => none

def ofLine? (line : String) : Option Instruction :=
  match lineWords line with
  | [] => none
  | mnemonic :: operands => ofParts? mnemonic operands

section Operands

variable (r : Register) (b : UInt8) (a : Word)

theorem toList_register : (register r).toList = 'V' :: (hex 1 r.val).toList := by
  rw [register, String.toList_append]
  rfl

theorem readRegister_register : readRegister (register r) = r := by
  rw [readRegister, toList_register, List.tail_cons, hexValue_hex, Fin.ofNat_val_eq_self]

theorem readByte_byte : readByte (byte b) = b := by
  rw [readByte, byte, hexValue_hex, UInt8.ofNat_toNat]

theorem readAddress_address : readAddress (address a) = a := by
  rw [readAddress, address, hexValue_hex, UInt16.ofNat_toNat]

theorem isRegister_register : isRegister (register r) = true := by
  rw [isRegister, toList_register]
  rfl

theorem isNumber_register : isNumber (register r) = false := by
  rw [isNumber, toList_register]
  rfl

theorem isNumber_byte : isNumber (byte b) = true := by
  rw [isNumber, List.all_eq_true]
  intro c hc
  rw [List.contains_iff_mem]
  exact mem_hex hc

theorem isWord_hex (width n : Nat) : IsWord (hex width n) := by
  constructor
  · intro h
    exact absurd (mem_hex h) (by decide)
  · intro h
    exact absurd (mem_hex h) (by decide)

theorem isWord_register : IsWord (register r) := by
  obtain ⟨hblank, hcomma⟩ := isWord_hex 1 r.val
  rw [IsWord, toList_register, List.mem_cons, List.mem_cons, not_or, not_or]
  exact ⟨⟨by decide, hblank⟩, ⟨by decide, hcomma⟩⟩

theorem readSource_byte : readSource r (byte b) = setByte r b := by
  unfold readSource
  rw [isNumber_byte, if_pos rfl, readByte_byte]

theorem readSource_register (s : Register) : readSource r (register s) = copy r s := by
  unfold readSource
  rw [isNumber_register, isRegister_register, readRegister_register]
  rfl

theorem readLoad_register (source : String) :
    readLoad (register r) source = readSource r source := by
  unfold readLoad
  rw [isRegister_register, if_pos rfl, readRegister_register]

theorem readLoad_address : readLoad "I" (address a) = setIndex a :=
  congrArg setIndex (readAddress_address a)

/-- The targets that are no registers are loaded from one. -/
theorem readLoad_of_register :
    readLoad "DT" (register r) = setDelay r ∧ readLoad "ST" (register r) = setSound r ∧
      readLoad "F" (register r) = pointGlyph r ∧ readLoad "B" (register r) = storeDecimal r ∧
      readLoad "[I]" (register r) = storeRegisters r := by
  have hread := readRegister_register r
  exact ⟨congrArg setDelay hread, congrArg setSound hread, congrArg pointGlyph hread,
    congrArg storeDecimal hread, congrArg storeRegisters hread⟩

theorem ofParts?_parts (i : Instruction) (h : i.kind ≠ .unknown) :
    ofParts? i.parts.1 i.parts.2 = some i := by
  cases i with
  | unknown w => exact absurd rfl h
  | clear | ret => rfl
  | setByte | copy =>
    simp only [parts, ofParts?, ofOperands?, readLoad_register, readSource_byte,
      readSource_register]
  | readDelay x | awaitKey x | loadRegisters x =>
    simp only [parts, ofParts?, ofOperands?, readLoad_register]
    rfl
  | setIndex a => simp only [parts, ofParts?, ofOperands?, readLoad_address]
  | setDelay x | setSound x | pointGlyph x | storeDecimal x | storeRegisters x =>
    simp only [parts, ofParts?, ofOperands?, readLoad_of_register]
  | draw x y height =>
    simp only [parts, ofParts?, readRegister_register, hexValue_hex, Fin.ofNat_val_eq_self, if_true]
  | addIndex x => exact congrArg some (congrArg addIndex (readRegister_register x))
  | addByte | add =>
    simp [parts, ofParts?, ofOperands?, readAdd, isRegister_register, isNumber_byte,
      isNumber_register, readRegister_register, readByte_byte]
  | _ =>
    simp only [parts, ofParts?, ofOperand?, ofOperands?, readSkip, readRegister_register,
      readByte_byte, readAddress_address, isNumber_byte, isNumber_register]

end Operands

/-- No instruction has the mnemonic of data. -/
theorem ofParts?_data (operands : List String) : ofParts? "DW" operands = none := by
  unfold ofParts?
  split <;> rfl

theorem isWord_parts (i : Instruction) : ∀ w ∈ i.parts.1 :: i.parts.2, IsWord w := by
  cases i <;>
    simp only [parts, List.forall_mem_cons, isWord_register, address, byte, isWord_hex,
      List.not_mem_nil, false_imp_iff, implies_true, and_true, true_and]
  all_goals decide

/-- An instruction is read back from its text. -/
theorem ofLine?_assembly (i : Instruction) (h : i.kind ≠ .unknown) :
    ofLine? i.assembly = some i := by
  rw [ofLine?, assembly, lineWords_joinLine i.isWord_parts]
  exact ofParts?_parts i h

end ChipEight.Instruction
