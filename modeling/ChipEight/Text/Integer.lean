/-!
Integers as people write them. A numeral is a sequence of decimal digits of any
script with single underscores between them, a sign may stand in front, and
blanks may stand around the whole. A numeral has at most 4300 digits.
-/

namespace ChipEight.Text

/-- The code points of the digit zero in the scripts that have decimal digits;
the other nine follow each. -/
def zeroDigits : List Nat :=
  [48, 1632, 1776, 1984, 2406, 2534, 2662, 2790, 2918, 3046, 3174, 3302, 3430, 3558, 3664, 3792,
   3872, 4160, 4240, 6112, 6160, 6470, 6608, 6784, 6800, 6992, 7088, 7232, 7248, 42528, 43216,
   43264, 43472, 43504, 43600, 44016, 65296, 66720, 68912, 69734, 69872, 69942, 70096, 70384,
   70736, 70864, 71248, 71360, 71472, 71904, 72016, 72784, 73040, 73120, 92768, 92864, 93008,
   120782, 120792, 120802, 120812, 120822, 123200, 123632, 125264, 130032]

def digitValue? (c : Char) : Option Nat :=
  (zeroDigits.find? fun first => first ≤ c.toNat ∧ c.toNat < first + 10).map (c.toNat - ·)

def isBlank (c : Char) : Bool :=
  [0x20, 0x85, 0xA0, 0x1680, 0x2028, 0x2029, 0x202F, 0x205F, 0x3000].contains c.toNat ||
    decide (9 ≤ c.toNat ∧ c.toNat ≤ 13) || decide (0x2000 ≤ c.toNat ∧ c.toNat ≤ 0x200A)

def trimBlanks (chars : List Char) : List Char :=
  ((chars.dropWhile isBlank).reverse.dropWhile isBlank).reverse

def numeral? : List Char → Option (List Nat)
  | [] => none
  | c :: rest =>
    match digitValue? c, rest with
    | none, _ => none
    | some d, [] => some [d]
    | some d, '_' :: more => (numeral? more).map (d :: ·)
    | some d, next :: more => (numeral? (next :: more)).map (d :: ·)

def maxDigits : Nat := 4300

def natural? (chars : List Char) : Option Nat :=
  (numeral? chars).bind fun digits =>
    if digits.length ≤ maxDigits then some (digits.foldl (fun n d => 10 * n + d) 0) else none

def integer? (text : String) : Option Int :=
  match trimBlanks text.toList with
  | '-' :: rest => (natural? rest).map fun n => -(n : Int)
  | '+' :: rest => (natural? rest).map fun n => (n : Int)
  | rest => (natural? rest).map fun n => (n : Int)

/-- Whether a text is a minus sign with digits behind it, at most one of them
led by a point; a line break may end it. -/
def looksNegative (text : String) : Bool :=
  let chars := text.toList
  let body := if chars.getLast? = some '\n' then chars.dropLast else chars
  let isDigit := fun c => (digitValue? c).isSome
  match body with
  | '-' :: rest =>
    match rest.dropWhile isDigit with
    | [] => !rest.isEmpty
    | '.' :: fraction => !fraction.isEmpty && fraction.all isDigit
    | _ => false
  | _ => false

end ChipEight.Text
