/-!
Doubles as exact numbers. Without its sign a finite double is a quotient of
naturals whose denominator is a power of two, so its decimals are found without
any rounding on the way.
-/

namespace ChipEight.Text

/-- The finite double `significand * 2 ^ (exponent - 1075)`, without a sign. -/
structure Binary where
  significand : Nat
  exponent : Nat
  deriving DecidableEq, Repr

namespace Binary

def ofBits? (bits : Nat) : Option Binary :=
  let exponent := bits / Nat.pow 2 52 % 2048
  let fraction := bits % Nat.pow 2 52
  if exponent = 2047 then none
  else if exponent = 0 then some ⟨fraction, 1⟩
  else some ⟨Nat.pow 2 52 + fraction, exponent⟩

/-- The number of parts between a double and the next. The parts are those of
the denominator. -/
def gap (x : Binary) : Nat := Nat.pow 2 (x.exponent - 1075)

def numerator (x : Binary) : Nat := x.significand * x.gap

def denominator (x : Binary) : Nat := Nat.pow 2 (1075 - x.exponent)

end Binary

/-- The natural number nearest to a quotient; of two that are equally near, the
even one. -/
def roundToEven (num den : Nat) : Nat :=
  let low := num / den
  let rest := num % den
  if 2 * rest < den then low
  else if den < 2 * rest then low + 1
  else low + low % 2

def signed (size : Binary → String) (x : Float) : String :=
  let bits := x.toBits.toNat
  let sign := if bits / Nat.pow 2 63 = 1 then "-" else ""
  match Binary.ofBits? bits with
  | some b => sign ++ size b
  | none => if bits % Nat.pow 2 52 = 0 then sign ++ "inf" else "nan"

end ChipEight.Text
