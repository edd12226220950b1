import ChipEight.Clock
import ChipEight.Fault
import ChipEight.Instruction.Assembly
import ChipEight.Log.Value
import ChipEight.Text.FixedPlaces

/-!
The log of a session. A message has a level and a text, and it is printed if
its level is at least as severe as the threshold of the log. Reports are what a
session tells its log; the log counts unknown opcodes and tones whether or not
it prints them. With time stamps on, the clock is read once for each printed
message, and besides only when the log is opened and when a session ends.
-/

namespace ChipEight

namespace Level

/-- The capital form of a letter, as far as it matters for the names below:
besides the ASCII letters only the dotless `i` and the long `s` have capitals
among them. -/
def capital (c : Char) : Char :=
  if c = 'ı' then 'I' else if c = 'ſ' then 'S' else c.toUpper

def capitals (level : String) : String := String.ofList (level.toList.map capital)

/-- How severe a level is. A level without a known name counts as `INFO`. -/
def severity (level : String) : Nat :=
  match capitals level with
  | "DEBUG" => 0
  | "INFO" => 1
  | "WARNING" => 2
  | "ERROR" => 3
  | "CRITICAL" => 4
  | _ => 1

def resetCode : String := "\x1b[0m"

/-- The terminal code that starts the colour of a level. A level may also be
called `RESET` and then has no colour of its own. -/
def colourCode (level : String) : String :=
  match capitals level with
  | "DEBUG" => "\x1b[36m"
  | "INFO" => "\x1b[32m"
  | "WARNING" => "\x1b[33m"
  | "ERROR" => "\x1b[31m"
  | "CRITICAL" => "\x1b[35m"
  | "RESET" => resetCode
  | _ => ""

end Level

/-- How a log prints: its name, its threshold, colours and time stamps. -/
structure LogStyle where
  name : String := "chipjax"
  threshold : String := "INFO"
  coloured : Bool := false
  stamped : Bool := true

/-- A text and the level it has. -/
structure Message where
  level : String
  text : String
  deriving DecidableEq, Repr

/-- What a session tells its log. -/
inductive Report where
  | message (message : Message)
  | loaded (source : String) (size : Int)
  | unknownOpcode (text : String)
  | tone (address : Int)
  | executed (address opcode : Int)
  | sessionEnd (pairs : List (String × Value))

/-- Why a report has no messages at any threshold: an executed integer that
names no word cannot be written as an instruction. -/
def Report.fault? : Report → Option Fault
  | .executed _ opcode =>
    if (Word.ofInt? opcode).isNone then some (.wordOutOfRange opcode) else none
  | _ => none

/-- The entries of a summary with one more. A key that is there already keeps
its place and takes the new value. -/
def Report.putEntry (key : String) (value : Value) :
    List (String × Value) → List (String × Value)
  | [] => [(key, value)]
  | e :: rest =>
    if e.1 = key then (key, value) :: rest else e :: putEntry key value rest

def Report.entries (pairs : List (String × Value)) : List (String × Value) :=
  pairs.foldl (fun entries p => putEntry p.1 p.2 entries) []

/-- The state of a log: what was printed so far, and what was counted. -/
structure Log where
  style : LogStyle
  clock : Clock
  started : Float
  printed : Array String
  unknownOpcodes : Nat
  tones : Nat

namespace Log

open Text

def create (style : LogStyle) (clock : Clock) : Log where
  style := style
  clock := clock.advance
  started := clock.now
  printed := #[]
  unknownOpcodes := 0
  tones := 0

def elapsed (log : Log) : Float := log.clock.now - log.started

def shows (log : Log) (level : String) : Bool :=
  decide (Level.severity log.style.threshold ≤ Level.severity level)

def stamp (log : Log) : String :=
  if log.style.stamped then "[" ++ alignRight 8 (fixedPlaces 2 log.elapsed) ++ "s]" else ""

def badge (log : Log) (level : String) : String :=
  let plain := "[" ++ alignRight 8 level ++ "]"
  if log.style.coloured then Level.colourCode level ++ plain ++ Level.resetCode else plain

def line (log : Log) (m : Message) : String :=
  log.stamp ++ log.badge m.level ++ "[" ++ log.style.name ++ "] " ++ m.text

def put (log : Log) (m : Message) : Log :=
  if log.shows m.level then
    { log with
      printed := log.printed.push (log.line m)
      clock := if log.style.stamped then log.clock.advance else log.clock }
  else log

def putAll (log : Log) (messages : List Message) : Log := messages.foldl put log

def ruler : String := String.ofList (List.replicate 40 '=')

def messages (log : Log) : Report → List Message
  | .message m => [m]
  | .loaded source size => [⟨"INFO", "Loaded " ++ toString size ++ " bytes from " ++ source⟩]
  | .unknownOpcode text => [⟨"WARNING", text⟩]
  | .tone address => [⟨"DEBUG", "Tone at 0x" ++ hexSigned 3 address⟩]
  | .executed address opcode =>
    match Instruction.disassemble? opcode with
    | some text =>
      [⟨"DEBUG", "0x" ++ hexSigned 3 address ++ ": " ++ hexSigned 4 opcode ++ "  " ++ text⟩]
    | none => []
  | .sessionEnd pairs =>
    [⟨"INFO", ruler⟩, ⟨"INFO", "Session ended after " ++ fixedPlaces 1 log.elapsed ++ "s"⟩] ++
      (Report.entries pairs).map (fun e => ⟨"INFO", "  " ++ e.1 ++ ": " ++ e.2.shown⟩) ++
      [⟨"INFO", "  unknown opcodes: " ++ toString log.unknownOpcodes⟩,
       ⟨"INFO", "  tones: " ++ toString log.tones⟩, ⟨"INFO", ruler⟩]

def count (log : Log) : Report → Log
  | .unknownOpcode _ => { log with unknownOpcodes := log.unknownOpcodes + 1 }
  | .tone _ => { log with tones := log.tones + 1 }
  | _ => log

/-- Takes the reading of the clock that a report needs besides its messages. -/
def consult (log : Log) : Report → Log
  | .sessionEnd _ => { log with clock := log.clock.advance }
  | _ => log

def report (log : Log) (r : Report) : Log :=
  let counted := log.count r
  (counted.consult r).putAll (counted.messages r)

end Log

end ChipEight
