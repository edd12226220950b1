import ChipEight.Word

/-!
The memory of the machine, 4096 bytes. Every number is an address: it names
the cell of its remainder by 4096, so a block that runs past the last cell
goes on at the first. A write changes the cell of its address and no other.
-/

namespace ChipEight

/-- The bytes of the memory, in the order of their addresses. -/
structure Memory where
  cells : Vector UInt8 4096
  deriving DecidableEq

namespace Memory

def zero : Memory := ⟨Vector.replicate 4096 0⟩

def read (m : Memory) (a : Nat) : UInt8 := m.cells[a % 4096]

def write (m : Memory) (a : Nat) (b : UInt8) : Memory :=
  ⟨m.cells.set (a % 4096) b⟩

def writeBytes (m : Memory) (a : Nat) : List UInt8 → Memory
  | [] => m
  | b :: rest => (m.write a b).writeBytes (a + 1) rest

def readBytes (m : Memory) (a count : Nat) : List UInt8 :=
  (List.range count).map fun i => m.read (a + i)

/-- The word whose high byte is at an address and whose low byte follows. -/
def word (m : Memory) (a : Nat) : Word := Word.ofBytes (m.read a) (m.read (a + 1))

theorem read_zero (a : Nat) : zero.read a = 0 := by
  simp [read, zero]

/-- An address counts by its remainder alone. -/
@[simp] theorem read_mod (m : Memory) (a : Nat) : m.read (a % 4096) = m.read a := by
  simp [read]

theorem read_write (m : Memory) (a q : Nat) (b : UInt8) :
    (m.write a b).read q = if q % 4096 = a % 4096 then b else m.read q := by
  simp only [read, write, Vector.getElem_set]
  split <;> split <;> simp_all

/-- A block of bytes is read where it was written, and around it nothing has
changed. The position of a cell in the block is its distance from the start of
the block, counted around the end of the memory. -/
theorem read_writeBytes (m : Memory) (a q : Nat) (bytes : List UInt8)
    (h : bytes.length ≤ 4096) :
    (m.writeBytes a bytes).read q =
      (bytes[(q + (4096 - a % 4096)) % 4096]?).getD (m.read q) := by
  induction bytes generalizing m a with
  | nil => simp [writeBytes]
  | cons b rest ih =>
    have hrest : rest.length < 4096 := h
    rw [writeBytes, ih _ _ (Nat.le_of_lt hrest), read_write]
    by_cases hq : q % 4096 = a % 4096
    · have hhead : (q + (4096 - a % 4096)) % 4096 = 0 := by omega
      have hlast : (q + (4096 - (a + 1) % 4096)) % 4096 = 4095 := by omega
      rw [hhead, hlast, List.getElem?_eq_none (by omega)]
      simp [hq]
    · have hnext : (q + (4096 - a % 4096)) % 4096
          = (q + (4096 - (a + 1) % 4096)) % 4096 + 1 := by omega
      rw [hnext, List.getElem?_cons_succ]
      simp [hq]

theorem length_readBytes (m : Memory) (a count : Nat) : (m.readBytes a count).length = count := by
  simp [readBytes]

/-- Two memories that read the same at every cell are the same. -/
theorem ext_read {m k : Memory} (h : ∀ a, a < 4096 → m.read a = k.read a) : m = k := by
  cases m with
  | mk cells =>
    cases k with
    | mk other =>
      congr
      apply Vector.ext
      intro i hi
      have := h i hi
      simpa [read, Nat.mod_eq_of_lt hi] using this

end Memory

end ChipEight
