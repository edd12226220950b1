import ChipEight.Text.Binary

/-!
Doubles as decimals with a fixed number of places. The exact value of the
double is scaled to an integer and rounded once, a tie going to the even
neighbour, so every printed digit is the digit of the correctly rounded value.
-/

namespace ChipEight.Text

def scaleDecimal (places : Nat) (x : Binary) : Nat :=
  roundToEven (x.numerator * Nat.pow 10 places) x.denominator

def placedDecimal (places n : Nat) : String :=
  let fraction := (toString (n % Nat.pow 10 places)).toList.leftpad places '0'
  toString (n / Nat.pow 10 places) ++ "." ++ String.ofList fraction

/-- A double with `places` places behind the point. The sign is kept where the
number rounds to zero. -/
def fixedPlaces (places : Nat) (x : Float) : String :=
  signed (fun b => placedDecimal places (scaleDecimal places b)) x

end ChipEight.Text
