import ChipEight.Files
import ChipEight.Host.Journal

/-!
A machine in the hands of a host. The host counts steps and keeps a journal.
A step moves the machine and the counter before it is reported, so they have
moved on where an unknown opcode is a fault. A batch of steps is made first and
reported afterwards; under a strict setup it ends at the first unknown opcode.
An operation that is refused leaves all as it was.
-/

namespace ChipEight

/-- A machine, the number of steps since it was fresh, and the journal of the
host. The key starts the random stream of every fresh machine. -/
structure Host where
  setup : HostSetup
  key : RandomKey
  machine : Machine
  steps : Nat
  journal : Journal

/-- What a host shows of its machine. -/
structure View where
  pc : Word
  index : Word
  registers : Vector UInt8 16
  delay : UInt8
  sound : UInt8
  dirty : Bool
  screen : Screen
  deriving DecidableEq

namespace Host

def log (h : Host) : Log := h.journal.log

def fresh (setup : HostSetup) (key : RandomKey) (log : Log) : Host where
  setup := setup
  key := key
  machine := Machine.fresh key setup.coupled
  steps := 0
  journal := ⟨log, 0⟩

/-- A host with a fresh machine, refused for a seed of more than 64 bits. -/
def create (setup : HostSetup) (log : Log) : Except Fault Host :=
  (RandomKey.ofSeed setup.seed).map fun key => fresh setup key log

def reset (h : Host) : Host :=
  { h with machine := Machine.fresh h.key h.setup.coupled, steps := 0 }

def tell (h : Host) (r : Report) : Host := { h with journal := h.journal.tell r }

def load (h : Host) (source : String) (p : Program) : Host :=
  { h with
    machine := h.machine.load p
    journal := h.journal.tell (.loaded source p.size) }

def loadFile (h : Host) (files : Files) (name : String) : Attempt Host Unit :=
  match files.program name with
  | .ok p => .done (h.load name p)
  | .error fault => (h, .error fault)

/-- The word at an address; every integer is one. -/
def peek (h : Host) (address : Int) : Word := h.machine.memory.word (address % 4096).toNat

def traceNext (h : Host) : Host :=
  if h.setup.trace then
    h.tell (.executed h.machine.pc.toNat (h.peek h.machine.pc.toNat).toNat)
  else h

def step (h : Host) : Attempt Host Event :=
  let made := h.machine.step
  ((h.traceNext.journal.observe h.setup made.2).mapState fun journal =>
    { h with machine := made.1, steps := h.steps + 1, journal := journal }).mapResult
    fun _ => made.2

/-- What `n` steps bring, under a strict setup no further than the first
unknown opcode. -/
def batch (h : Host) (n : Nat) : Machine × List Event :=
  let whole := h.machine.run n
  if h.setup.strict then
    match whole.2.findIdx? (·.unknown) with
    | some i => h.machine.run (i + 1)
    | none => whole
  else whole

def run (h : Host) (n : Nat) : Attempt Host (List Event) :=
  let made := h.batch n
  ((h.journal.observeAll h.setup made.2).mapState fun journal =>
    { h with machine := made.1, steps := h.steps + made.2.length, journal := journal }).mapResult
    fun _ => made.2

def tick (h : Host) : Host × Bool :=
  let ticked := h.machine.tick
  ({ h with
     machine := ticked.1
     journal := if ticked.2 then h.journal.hear h.setup ticked.1.pc else h.journal },
   ticked.2)

def withMachine (h : Host) (result : Except Fault Machine) : Attempt Host Unit :=
  match result with
  | .ok m => .done { h with machine := m }
  | .error fault => (h, .error fault)

def setKey (h : Host) (key : Int) (pressed : Bool) : Attempt Host Unit :=
  h.withMachine (h.machine.setKey key pressed)

def setKeys (h : Host) (flags : List Bool) : Attempt Host Unit :=
  h.withMachine (h.machine.setKeys flags)

def consume (h : Host) : Host × Screen :=
  ({ h with machine := h.machine.markShown }, h.machine.screen)

def view (h : Host) : View where
  pc := h.machine.pc
  index := h.machine.index
  registers := h.machine.registers
  delay := h.machine.delay
  sound := h.machine.sound
  dirty := h.machine.dirty
  screen := h.machine.screen

end Host

end ChipEight
