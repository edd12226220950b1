import ChipEight.Fault

/-!
The stream of random bytes. A key is two 32-bit halves and a block cipher of
twenty rounds turns a key and a counter into two halves again. From a key come
the byte that it draws and the key that follows it, so the stream is fixed by
the first key.
-/

namespace ChipEight

/-- The two halves of a key, or of a block. -/
structure RandomKey where
  high : UInt32
  low : UInt32
  deriving DecidableEq, Repr

namespace RandomKey

/-- The key of a seed: the low 32 bits of a 64-bit integer. -/
def ofSeed (seed : Int) : Except Fault RandomKey :=
  if -9223372036854775808 ≤ seed ∧ seed ≤ 9223372036854775807 then
    .ok ⟨0, UInt32.ofInt seed⟩
  else .error (.seedOutOfRange seed)

def rotateLeft (x r : UInt32) : UInt32 := (x <<< r) ||| (x >>> (32 - r))

def round (block : RandomKey) (r : UInt32) : RandomKey :=
  let high := block.high + block.low
  ⟨high, rotateLeft block.low r ^^^ high⟩

def schedule (key : RandomKey) : Fin 3 → UInt32
  | 0 => key.high
  | 1 => key.low
  | 2 => key.high ^^^ key.low ^^^ 0x1BD11BDA

def rotations (group : Nat) : List UInt32 :=
  if group % 2 = 0 then [13, 15, 26, 6] else [17, 29, 16, 24]

def mixGroup (key block : RandomKey) (group : Nat) : RandomKey :=
  let mixed := (rotations group).foldl round block
  ⟨mixed.high + key.schedule (Fin.ofNat 3 (group + 1)),
   mixed.low + key.schedule (Fin.ofNat 3 (group + 2)) + UInt32.ofNat (group + 1)⟩

def encrypt (key counter : RandomKey) : RandomKey :=
  let start : RandomKey := ⟨counter.high + key.high, counter.low + key.low⟩
  (List.range 5).foldl key.mixGroup start

def next (key : RandomKey) : RandomKey := key.encrypt ⟨0, 0⟩

def byte (key : RandomKey) : UInt8 :=
  let block := (key.encrypt ⟨0, 1⟩).encrypt ⟨0, 0⟩
  (block.high ^^^ block.low).toUInt8

end RandomKey

end ChipEight
