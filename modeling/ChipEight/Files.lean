import ChipEight.Program

/-!
Files, as far as a host has to do with them: a name gives the bytes of a file
or the reason why it does not.
-/

namespace ChipEight

/-- A place that programs are read from by name. -/
structure Files where
  read : String → Except Fault (List UInt8)

def Files.empty : Files := ⟨fun name => .error (.fileMissing name)⟩

def Files.program (files : Files) (name : String) : Except Fault Program :=
  match files.read name with
  | .ok bytes => Program.ofBytes bytes
  | .error fault => .error fault

end ChipEight
