import ChipEight.Text.Binary
import ChipEight.Text.Decimal

/-!
Doubles with as few digits as tell them apart. A decimal stands for a double if
no other double is nearer to it; a decimal halfway between two doubles stands
for the one with the even significand. The last place is moved to the right
until a decimal with that place stands for the double, and the nearest one is
written.
-/

namespace ChipEight.Text

namespace Binary

/-- Whether the gap below a double is half the gap above it: so it is where the
exponent changes. -/
def isNarrow (x : Binary) : Bool :=
  decide (x.significand = Nat.pow 2 52) && decide (1 < x.exponent)

/-- Whether a decimal stands for a double. The ends of the interval are taken
in quarters of the parts of the double. -/
def admits (x : Binary) (d : Decimal) : Bool :=
  let power := Nat.pow 10 (-d.exponent).toNat
  let low := (4 * x.numerator - if x.isNarrow then x.gap else 2 * x.gap) * power
  let high := (4 * x.numerator + 2 * x.gap) * power
  let point := 4 * x.denominator * (d.digits * Nat.pow 10 d.exponent.toNat)
  if x.significand % 2 = 0 then decide (low ≤ point) && decide (point ≤ high)
  else decide (low < point) && decide (point < high)

def decimalAt? (x : Binary) (exponent : Int) : Option Decimal :=
  let num := x.numerator * Nat.pow 10 (-exponent).toNat
  let den := x.denominator * Nat.pow 10 exponent.toNat
  let below : Decimal := ⟨num / den, exponent⟩
  let above : Decimal := ⟨num / den + 1, exponent⟩
  match x.admits below, x.admits above with
  | true, true => some ⟨roundToEven num den, exponent⟩
  | true, false => some below
  | false, true => some above
  | false, false => none

def allDigits (x : Binary) : Decimal :=
  ⟨x.numerator * Nat.pow 5 (1075 - x.exponent), -((1075 - x.exponent : Nat) : Int)⟩

/-- The decimal with the fewest digits that stands for a double. The greatest
double has 309 digits before the point, the least one 1074 places behind it. -/
def shortest (x : Binary) : Decimal :=
  if x.significand = 0 then ⟨0, 0⟩
  else ((List.range 1384).findSome? fun place : Nat =>
    x.decimalAt? (309 - (place : Int))).getD x.allDigits

end Binary

/-- A double with as few digits as tell it apart. -/
def shortest (x : Float) : String := signed (fun b => b.shortest.text) x

end ChipEight.Text
