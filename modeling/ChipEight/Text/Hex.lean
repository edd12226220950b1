/-!
Numbers in base sixteen and columns of text. A number is padded with zeros
behind its sign up to a wanted width and never cut, so different numbers have
different texts. A column is padded with blanks in front and never cut either.
-/

namespace ChipEight.Text

def hexDigits (n : Nat) : List Char :=
  (Nat.toDigits 16 n).map Char.toUpper

def hex (width n : Nat) : String :=
  String.ofList ((hexDigits n).leftpad width '0')

/-- An integer in base sixteen; the sign counts as one place of the width. -/
def hexSigned (width : Nat) (i : Int) : String :=
  if i < 0 then "-" ++ hex (width - 1) i.natAbs else hex width i.natAbs

def alignRight (width : Nat) (text : String) : String :=
  String.ofList (text.toList.leftpad width ' ')

end ChipEight.Text
