import ChipEight.Fault

/-!
The length of a batch of instructions. A batch counts its instructions in 32
bits and keeps their events in rows whose length has 64 bits, one bit of each
being a sign. A greater length is refused before the first instruction.
-/

namespace ChipEight.Batch

def check (count : Nat) : Except Fault Unit :=
  if Nat.pow 2 63 ≤ count then .error (.batchUncountable count)
  else if Nat.pow 2 31 ≤ count then .error (.batchTooLong count)
  else .ok ()

/-- A batch is refused exactly from a certain number on. -/
theorem check_eq_ok_iff (count : Nat) : check count = .ok () ↔ count < Nat.pow 2 31 := by
  have hlimits : Nat.pow 2 31 ≤ Nat.pow 2 63 := by decide
  unfold check
  split
  · simp only [reduceCtorEq, false_iff]
    omega
  · split
    · simp only [reduceCtorEq, false_iff]
      omega
    · simp only [true_iff]
      omega

end ChipEight.Batch
