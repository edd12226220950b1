import ChipEight.Word

/-!
The keys of the host that stand for keys of the pad. The four rows that start
with `1`, `q`, `a` and `z` are laid on the four rows of the pad.
-/

namespace ChipEight.KeyMap

def table : List (String × Fin 16) :=
  [("1", 0x1), ("2", 0x2), ("3", 0x3), ("4", 0xC),
   ("q", 0x4), ("w", 0x5), ("e", 0x6), ("r", 0xD),
   ("a", 0x7), ("s", 0x8), ("d", 0x9), ("f", 0xE),
   ("z", 0xA), ("x", 0x0), ("c", 0xB), ("v", 0xF)]

def padKey? (name : String) : Option (Fin 16) := table.lookup name

end ChipEight.KeyMap
