import ChipEight.Setting
import ChipEight.Text.Hex
import ChipEight.Text.Quoted

/-!
The ways in which an operation can fail, and the sentence that reports each.
A fault names its cause and the value that caused it; the wording is in one
place, `Fault.message`.
-/

namespace ChipEight

/-- Why an operation was refused or stopped. -/
inductive Fault where
  | programTooLarge (size limit : Nat)
  | byteOutOfRange (value : Int)
  | unknownOpcode (opcode address : Int)
  | keyOutOfRange (key : Int)
  | keyCount (count : Nat)
  | unknownScheme (name : String) (known : List String)
  | fileMissing (name : String)
  | fileIsDirectory (name : String)
  | fileIsNoDirectory (name : String)
  | fileNameTooLong (name : String)
  | zeroInFileName
  | zeroInTitle
  | windowNegative (width height : Int)
  | windowTooLarge (width height : Int)
  | windowOutOfRange (scale : Int)
  | imageScaleOutOfRange (scale : Int)
  | imageUncountable
  | batchTooLong (count : Nat)
  | batchUncountable (count : Nat)
  | blank (setting : Setting)
  | seedOutOfRange (seed : Int)
  | wordOutOfRange (value : Int)
  | colourOutOfRange (value : Int)
  deriving DecidableEq, Repr

namespace Fault

open Text

private def outOfRange (what : String) (value : Int) : String :=
  what ++ " " ++ toString value ++ " is out of range"

private def windowOf (width height : Int) : String :=
  "Window of " ++ toString width ++ " by " ++ toString height ++ " pixels"

private def batchOf (count : Nat) : String := "Batch of " ++ toString count ++ " instructions"

private def leftBlank (what : String) : String := "The " ++ what ++ " was left blank"

private def blankMessage : Setting → String
  | .scale => leftBlank "scale"
  | .ipf =>
    "Non-hashable static arguments are not supported. An error occurred while trying to hash " ++
      "an object of type <class 'list'>, []. The error was:\nTypeError: unhashable type: 'list'\n"
  | .colors => leftBlank "color scheme"
  | .seed => leftBlank "seed"
  | .logLevel => leftBlank "log level"
  | .headless => leftBlank "number of steps"

def message : Fault → String
  | programTooLarge size limit =>
    "Program is " ++ toString size ++ " bytes, at most " ++ toString limit ++
      " bytes fit above 0x200"
  | byteOutOfRange value => outOfRange "Byte" value
  | unknownOpcode opcode address =>
    "Unknown opcode 0x" ++ hexSigned 4 opcode ++ " at 0x" ++ hexSigned 3 address
  | keyOutOfRange key => "Key index must be in 0..15, got " ++ toString key
  | keyCount count => "Expected 16 key flags, got " ++ toString count
  | unknownScheme name known =>
    "Unknown color scheme '" ++ name ++ "'. Available: [" ++
      String.intercalate ", " (known.map quoted) ++ "]"
  | fileMissing name => "[Errno 2] No such file or directory: " ++ quoted name
  | fileIsDirectory name => "[Errno 21] Is a directory: " ++ quoted name
  | fileIsNoDirectory name => "[Errno 20] Not a directory: " ++ quoted name
  | fileNameTooLong name => "[Errno 36] File name too long: " ++ quoted name
  | zeroInFileName => "embedded null byte"
  | zeroInTitle => "embedded null character"
  | windowNegative width height => windowOf width height
  | windowTooLarge width height => windowOf width height
  | windowOutOfRange scale => outOfRange "Window scale" scale
  | imageScaleOutOfRange scale => outOfRange "Image scale" scale
  | imageUncountable =>
    "array is too big; `arr.size * arr.dtype.itemsize` is larger than the maximum possible size."
  | batchTooLong count => batchOf count
  | batchUncountable count => batchOf count
  | blank setting => blankMessage setting
  | seedOutOfRange seed => outOfRange "Seed" seed
  | wordOutOfRange value => outOfRange "Instruction" value
  | colourOutOfRange value => outOfRange "Colour component" value

end Fault

def Setting.require (blank : List Setting) (s : Setting) : Except Fault Unit :=
  if blank.contains s then .error (.blank s) else .ok ()

end ChipEight
