import ChipEight.Setting
import ChipEight.Text.Integer

/-!
The options of the command line and how they are read. A long option may be
shortened to any beginning that no other option shares, and its value follows
as the next argument or behind an equality sign. The one operand is the file of
the program. Behind a lone `--` everything is an operand. An argument that
looks like a negative number, or holds a blank and names no option, is an
operand too. Repeated options count by their last value. The value `--` leaves
its setting blank.
-/

namespace ChipEight

/-- What the command line asks for. The values of blank settings do not count. -/
structure Options where
  rom : String
  scale : Int := 10
  ipf : Int := 10
  colors : String := "classic"
  decoupleTimers : Bool := false
  strict : Bool := false
  seed : Int := 0
  logLevel : String := "INFO"
  headless : Option Int := none
  dumpDisplay : Bool := false
  blank : List Setting := []
  deriving DecidableEq, Repr

namespace Options

/-- Why no options were read: help was asked for, or the arguments were wrong. -/
inductive Refusal where
  | help
  | wrong
  deriving DecidableEq, Repr

/-- An option that stands alone. -/
inductive Switch where
  | help | decoupleTimers | strict | dumpDisplay
  deriving DecidableEq, Repr

def names : List (String × (Switch ⊕ Setting)) :=
  [("--help", .inl .help), ("--scale", .inr .scale), ("--ipf", .inr .ipf),
   ("--colors", .inr .colors), ("--decouple-timers", .inl .decoupleTimers),
   ("--strict", .inl .strict), ("--seed", .inr .seed), ("--log-level", .inr .logLevel),
   ("--headless", .inr .headless), ("--dump-display", .inl .dumpDisplay)]

def logLevels : List String := ["DEBUG", "INFO", "WARNING", "ERROR", "CRITICAL"]

/-- What an argument is, before it is known what stands around it. A setting may
hold its value already; `misused` is a switch with a value. -/
inductive Argument where
  | operand (text : String)
  | separator
  | switch (s : Switch)
  | setting (s : Setting) (attached : Option String)
  | misused
  | unknown
  deriving DecidableEq, Repr

/-- The part of an argument before its first equality sign, and the part behind
it if there is one. -/
def splitAttached (text : String) : String × Option String :=
  let chars := text.toList
  (String.ofList (chars.takeWhile (· != '=')),
   match chars.dropWhile (· != '=') with
   | [] => none
   | _ :: value => some (String.ofList value))

def long (option : Switch ⊕ Setting) (attached : Option String) : Argument :=
  match option, attached with
  | .inl s, none => .switch s
  | .inl _, some _ => .misused
  | .inr s, value => .setting s value

/-- The argument of the letters behind `-h`, the only short option: it may be
repeated without a dash, and an equality sign may stand between the first and
the second. -/
def short (letters : List Char) : Argument :=
  match letters with
  | '=' :: more => if !more.isEmpty && more.all (· == 'h') then .switch .help else .misused
  | _ => if letters.all (· == 'h') then .switch .help else .misused

def candidates (beginning : String) : List (String × (Switch ⊕ Setting)) :=
  names.filter fun entry => beginning.toList.isPrefixOf entry.1.toList

def unnamed (text : String) : Argument :=
  if Text.looksNegative text || text.toList.contains ' ' then .operand text else .unknown

/-- What an argument is that stands before any `--`; an ambiguous one is wrong. -/
def classify (text : String) : Except Refusal Argument :=
  match text.toList with
  | [] => .ok (.operand text)
  | ['-'] => .ok (.operand text)
  | '-' :: '-' :: _ =>
    let parts := splitAttached text
    match names.lookup parts.1 with
    | some option => .ok (long option parts.2)
    | none =>
      match candidates parts.1 with
      | [] => .ok (unnamed text)
      | [entry] => .ok (long entry.2 parts.2)
      | _ => .error .wrong
  | '-' :: 'h' :: letters => .ok (short letters)
  | '-' :: _ => .ok (unnamed text)
  | _ => .ok (.operand text)

def classifyAll : List String → Except Refusal (List Argument)
  | [] => .ok []
  | "--" :: rest => .ok (.separator :: rest.map .operand)
  | text :: rest =>
    match classify text with
    | .ok a => (classifyAll rest).map (a :: ·)
    | .error refusal => .error refusal

def integer (text : String) : Except Refusal Int :=
  match Text.integer? text with
  | some i => .ok i
  | none => .error .wrong

def assign (o : Options) (s : Setting) (value : String) : Except Refusal Options :=
  match s with
  | .scale => (integer value).map fun i => { o with scale := i }
  | .ipf => (integer value).map fun i => { o with ipf := i }
  | .colors => .ok { o with colors := value }
  | .seed => (integer value).map fun i => { o with seed := i }
  | .logLevel => if logLevels.contains value then .ok { o with logLevel := value } else .error .wrong
  | .headless => (integer value).map fun i => { o with headless := some i }

/-- The options with a setting filled by a value or left blank. A run without a
window is asked for even where its number of steps is blank. -/
def fill (o : Options) (s : Setting) (value : String) : Except Refusal Options :=
  if value = "--" then
    .ok { o with
      blank := s :: o.blank
      headless := if s = .headless then some 0 else o.headless }
  else (o.assign s value).map fun filled => { filled with blank := o.blank.filter (· != s) }

def switchOn (o : Options) : Switch → Except Refusal Options
  | .help => .error .help
  | .decoupleTimers => .ok { o with decoupleTimers := true }
  | .strict => .ok { o with strict := true }
  | .dumpDisplay => .ok { o with dumpDisplay := true }

/-- Options read so far: whether the operand was seen, and whether something
was left over that belongs to no option. -/
structure Reading where
  options : Options
  named : Bool
  surplus : Bool
  deriving DecidableEq, Repr

def Reading.operand (r : Reading) (text : String) : Reading :=
  if r.named then { r with surplus := true }
  else { r with options := { r.options with rom := text }, named := true }

/-- Takes the arguments in order. A separator goes with the operand before or
behind it, and is left over anywhere else. -/
def Reading.take (r : Reading) : List Argument → Except Refusal Reading
  | [] => .ok r
  | .operand text :: .separator :: rest => (r.operand text).take rest
  | .operand text :: rest => (r.operand text).take rest
  | .separator :: .operand text :: rest => (r.operand text).take rest
  | .separator :: rest => { r with surplus := true }.take rest
  | .switch s :: rest =>
    match r.options.switchOn s with
    | .ok o => { r with options := o }.take rest
    | .error refusal => .error refusal
  | .setting s (some value) :: rest =>
    match r.options.fill s value with
    | .ok o => { r with options := o }.take rest
    | .error refusal => .error refusal
  | .setting s none :: .operand value :: rest =>
    match r.options.fill s value with
    | .ok o => { r with options := o }.take rest
    | .error refusal => .error refusal
  | .setting _ none :: _ => .error .wrong
  | .misused :: _ => .error .wrong
  | .unknown :: rest => { r with surplus := true }.take rest

def ofArguments (arguments : List String) : Except Refusal Options := do
  let classified ← classifyAll arguments
  let start : Reading := ⟨{ rom := "" }, false, false⟩
  let r ← start.take classified
  if r.named && !r.surplus then .ok r.options else .error .wrong

end Options

end ChipEight
