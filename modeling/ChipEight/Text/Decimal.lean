/-!
Decimals and how they are written. From a ten-thousandth up to sixteen digits
before the point the digits stand where they belong, with at least one on both
sides of the point. Smaller and larger decimals are written with one digit
before the point and a power of ten, whose sign and first two digits are always
there.
-/

namespace ChipEight.Text

/-- The decimal `digits * 10 ^ exponent`. -/
structure Decimal where
  digits : Nat
  exponent : Int
  deriving DecidableEq, Repr

namespace Decimal

def scientific (digits : List Char) (power : Int) : String :=
  let fraction := if digits.length = 1 then [] else '.' :: digits.drop 1
  let places := (toString power.natAbs).toList.leftpad 2 '0'
  String.ofList (digits.take 1 ++ fraction ++ ['e', if power < 0 then '-' else '+'] ++ places)

/-- Digits with the point behind the first `whole` of them. Zeros fill the
places that are missing on either side. -/
def positional (digits : List Char) (whole : Int) : String :=
  let led := List.replicate (1 - whole).toNat '0' ++ digits
  let count := (max whole 1).toNat
  let fraction := led.drop count
  String.ofList ((led.take count).rightpad count '0' ++ ['.'] ++
    if fraction.isEmpty then ['0'] else fraction)

def text (d : Decimal) : String :=
  let digits := (toString d.digits).toList
  let whole := (digits.length : Int) + d.exponent
  if -4 < whole ∧ whole ≤ 16 then positional digits whole else scientific digits (whole - 1)

end Decimal

end ChipEight.Text
