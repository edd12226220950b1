import ChipEight.Batch
import ChipEight.Machine.Execute

/-!
Steps of a machine. A step fetches the word at the program counter, moves the
counter behind it, executes the instruction and, if the timers are coupled to
the instructions, counts them down, except while the machine waits for a key.
A run is a number of steps with the events of all of them. It may be asked for
as one batch, and then it can be too long.
-/

namespace ChipEight

/-- What a host can see of one step: where the word was, which word it was,
whether it was unknown, whether the machine waits for a key, and whether the
sound timer ran out. -/
structure Event where
  address : Word
  instruction : Word
  unknown : Bool
  waiting : Bool
  tone : Bool
  deriving DecidableEq, Repr

namespace Machine

def fetch (m : Machine) : Machine × Word :=
  ({ m with pc := m.pc + 2 }, m.memory.word m.pc.toNat)

def tick (m : Machine) : Machine × Bool :=
  ({ m with
     delay := if m.delay = 0 then 0 else m.delay - 1
     sound := if m.sound = 0 then 0 else m.sound - 1 },
   m.sound == 1)

def step (m : Machine) : Machine × Event :=
  let word := m.fetch.2
  let instruction := Instruction.ofWord word
  let after := m.fetch.1.execute instruction
  let waiting := instruction.kind == .awaitKey && !after.keypad.anyPressed
  let ticked := if after.coupled && !waiting then after.tick else (after, false)
  (ticked.1,
   { address := m.pc
     instruction := word
     unknown := instruction.kind == .unknown
     waiting := waiting
     tone := ticked.2 })

def run : Nat → Machine → Machine × List Event
  | 0, m => (m, [])
  | n + 1, m =>
    let first := m.step
    let rest := run n first.1
    (rest.1, first.2 :: rest.2)

/-- A run that is asked for as one batch. It is refused, before its first step, if
it is too long to be counted. -/
def runBatch (m : Machine) (n : Nat) : Except Fault (Machine × List Event) :=
  (Batch.check n).map fun _ => m.run n

theorem length_run (n : Nat) (m : Machine) : (m.run n).2.length = n := by
  induction n generalizing m with
  | zero => rfl
  | succ n ih => simp [run, ih]

/-- A run may be cut anywhere: its second part goes on where the first ended. -/
theorem run_add (j n : Nat) (m : Machine) :
    m.run (j + n) = (((m.run j).1.run n).1, (m.run j).2 ++ ((m.run j).1.run n).2) := by
  induction j generalizing m with
  | zero => simp [run]
  | succ j ih => simp [Nat.succ_add, run, ih]

end Machine

end ChipEight
