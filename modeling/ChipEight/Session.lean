import ChipEight.Batch
import ChipEight.Host
import ChipEight.Image
import ChipEight.KeyMap
import ChipEight.Window

/-!
A session in a window. The window delivers its input in turns. In each turn the
session takes note of all events, then, unless it is paused, hands the held
keys to the machine and runs a batch of instructions, and then paints if the
screen changed or the overlay is on. It ends after the turn in which it was
told to quit, and a window whose script has ended quits. However a session
ends, once its machine exists, the last thing it logs is a summary.
-/

namespace ChipEight

/-- What a window delivers. Keys have the names that the host gives them. -/
inductive InputEvent where
  | quit
  | keyDown (name : String)
  | keyUp (name : String)
  | other
  deriving DecidableEq, Repr

/-- How a session is set up: the file of its program, the size of a pixel, the
instructions of a turn, the colours, the machine, the settings that were left
blank and whose values here do not count, and, if no sound can be played, the
reason. -/
structure SessionSetup where
  rom : String
  scale : Int := 10
  batch : Nat := 10
  scheme : String := "classic"
  coupled : Bool := true
  strict : Bool := false
  seed : Int := 0
  blank : List Setting := []
  silence : Option String := none
  deriving DecidableEq, Repr

/-- A session under way: the held keys are those of the window, and `paints`
and `overlays` are what the window showed so far, oldest first. -/
structure Session where
  host : Host
  held : Keypad
  running : Bool
  paused : Bool
  overlay : Bool
  paints : Array Image
  overlays : Array (List String)

/-- What a session leaves behind: what was shown, heard and logged, and the
last screen or the fault that ended it. -/
structure Transcript where
  paints : Array Image
  overlays : Array (List String)
  beeps : Nat
  log : Log
  result : Except Fault Screen

namespace Session

open Text

def start (host : Host) : Session where
  host := host
  held := Keypad.released
  running := true
  paused := false
  overlay := false
  paints := #[]
  overlays := #[]

def withHost {α : Type} (s : Session) (a : Attempt Host α) : Attempt Session Unit :=
  (a.mapState fun host => { s with host := host }).mapResult fun _ => ()

def inform (s : Session) (text : String) : Session :=
  { s with host := s.host.tell (.message ⟨"INFO", text⟩) }

/-- Starts the program over with a fresh machine. Held keys and switches stay. -/
def restart (files : Files) (rom : String) (s : Session) : Attempt Session Unit :=
  (s.withHost (s.host.reset.loadFile files rom)).andThen fun loaded _ =>
    .done (loaded.inform "Reset")

def hold (s : Session) (name : String) (pressed : Bool) : Session :=
  match KeyMap.padKey? name with
  | some k => { s with held := s.held.put k pressed }
  | none => s

def handle (files : Files) (rom : String) (s : Session) : InputEvent → Attempt Session Unit
  | .quit => .done { s with running := false }
  | .keyDown "ESCAPE" => .done { s with running := false }
  | .keyDown "p" => .done { s with paused := !s.paused }
  | .keyDown "F2" => .done { s with overlay := !s.overlay }
  | .keyDown "BACKSPACE" => s.restart files rom
  | .keyDown name => .done (s.hold name true)
  | .keyUp name => .done (s.hold name false)
  | .other => .done s

def handleAll (files : Files) (rom : String) (s : Session) (events : List InputEvent) :
    Attempt Session Unit :=
  Attempt.forEach (handle files rom) events s

/-- Hands the held keys to the machine, runs a batch and, if the timers are
not coupled to the instructions, counts them down once. -/
def playBatch (held : Keypad) (batch : Nat) (h : Host) : Attempt Host Unit :=
  (h.setKeys held.keys.toList).andThen fun keyed _ =>
    (keyed.run batch).andThen fun ran _ =>
      .done (if ran.setup.coupled then ran else ran.tick.1)

def batchLength (setup : SessionSetup) : Except Fault Nat := do
  Setting.require setup.blank .ipf
  Batch.check setup.batch
  return setup.batch

def play (setup : SessionSetup) (s : Session) : Attempt Session Unit :=
  if s.paused then .done s
  else
    match batchLength setup with
    | .ok count => s.withHost (playBatch s.held count s.host)
    | .error fault => (s, .error fault)

def overlayLines (s : Session) : List String :=
  let v := s.host.view
  ["PC: 0x" ++ hex 3 v.pc.toNat ++ "  " ++
     (Instruction.ofWord (s.host.peek v.pc.toNat)).assembly,
   "I: 0x" ++ hex 3 v.index.toNat,
   "DT: " ++ toString v.delay.toNat ++ "  ST: " ++ toString v.sound.toNat,
   String.intercalate " " (v.registers.toList.map fun b => hex 2 b.toNat),
   "Status: " ++ if s.paused then "PAUSED" else "RUNNING"]

def addPaint (s : Session) (image : Image) : Session :=
  { s with
    paints := s.paints.push image
    overlays := if s.overlay then s.overlays.push s.overlayLines else s.overlays }

/-- Paints the screen, and the overlay if it is on, unless the window already
shows the screen and the overlay is off. A scale for which there is no image is
refused when the screen has been taken. -/
def paint (scale : Int) (palette : Palette) (s : Session) : Attempt Session Unit :=
  if s.host.machine.dirty || s.overlay then
    let shown := s.host.consume
    let taken := { s with host := shown.1 }
    match Image.render shown.2 scale palette with
    | .ok image => .done (taken.addPaint image)
    | .error fault => (taken, .error fault)
  else .done s

def turn (files : Files) (setup : SessionSetup) (palette : Palette) (events : List InputEvent)
    (s : Session) : Attempt Session Unit :=
  (s.handleAll files setup.rom events).andThen fun noted _ =>
    (noted.play setup).andThen fun played _ =>
      played.paint setup.scale palette

def turns (files : Files) (setup : SessionSetup) (palette : Palette) :
    List (List InputEvent) → Session → Attempt Session Unit
  | [], s => .done s
  | events :: rest, s =>
    (s.turn files setup palette events).andThen fun after _ =>
      if after.running then turns files setup palette rest after else .done after

def playScript (files : Files) (setup : SessionSetup) (palette : Palette)
    (script : List (List InputEvent)) (s : Session) : Attempt Session Unit :=
  (s.withHost (s.host.loadFile files setup.rom)).andThen fun loaded _ =>
    turns files setup palette (script ++ [[.quit]]) loaded

def summary (h : Host) : Report := .sessionEnd [("instructions", .integer h.steps)]

def openLog (setup : SessionSetup) (log : Log) : Log :=
  match setup.silence with
  | some reason => log.report (.message ⟨"WARNING", "Audio disabled: " ++ reason⟩)
  | none => log

def hostSetup (setup : SessionSetup) : HostSetup where
  seed := setup.seed
  coupled := setup.coupled
  strict := setup.strict
  listening := setup.silence.isNone

def refused (log : Log) (fault : Fault) : Transcript where
  paints := #[]
  overlays := #[]
  beeps := 0
  log := log
  result := .error fault

def close (ended : Attempt Session Unit) : Transcript :=
  let host := ended.1.host.tell (summary ended.1.host)
  { paints := ended.1.paints
    overlays := ended.1.overlays
    beeps := host.journal.heard
    log := host.log
    result := ended.2.map fun _ => host.machine.screen }

def prepare (setup : SessionSetup) : Except Fault Palette := do
  Setting.require setup.blank .colors
  let palette ← Palette.named setup.scheme
  Setting.require setup.blank .scale
  Window.check setup.scale setup.rom
  return palette

def createHost (setup : SessionSetup) (log : Log) : Except Fault Host := do
  Setting.require setup.blank .seed
  Host.create (hostSetup setup) log

/-- The colours of a session and the session before its first turn. What has to
do with the window is refused before anything is logged, the seed before the
controls are explained; the log of a refusal is kept. -/
def begin (setup : SessionSetup) (log : Log) : Except (Log × Fault) (Palette × Session) :=
  match prepare setup with
  | .error fault => .error (log, fault)
  | .ok palette =>
    let opened := openLog setup log
    match createHost setup opened with
    | .error fault => .error (opened, fault)
    | .ok host =>
      .ok (palette,
        (start host).inform "Controls: ESC=Quit, P=Pause, BACKSPACE=Reset, F2=Debug")

def run (files : Files) (setup : SessionSetup) (log : Log) (script : List (List InputEvent)) :
    Transcript :=
  match begin setup log with
  | .error (opened, fault) => refused opened fault
  | .ok (palette, ready) => close (playScript files setup palette script ready)

end Session

end ChipEight
