import ChipEight.Options
import ChipEight.Session

/-!
The program as a whole. With a number of steps it runs without a window and
logs a summary; without one it plays a session. Faults of the program file and
of a strict machine are logged and give status 1; every other fault leaves the
program. The display is printed at the end if that was asked for.
-/

namespace ChipEight

/-- What the program finds around it: files, time, the input of its window,
the reason if no sound can be played, and whether it prints to a terminal. -/
structure Surroundings where
  files : Files
  clock : Clock
  script : List (List InputEvent)
  silence : Option String
  terminal : Bool

/-- How the program ended. -/
inductive Ending where
  | status (code : Nat)
  | uncaught (fault : Fault)
  deriving DecidableEq, Repr

/-- What a run of the program leaves: how it ended, the messages that it
printed in order, and what its window showed. -/
structure Outcome where
  ending : Ending
  output : List String
  paints : Array Image
  overlays : Array (List String)
  beeps : Nat

namespace Headless

def steps (count : Nat) (h : Host) : Attempt Host Unit :=
  Attempt.times (fun h => h.step.mapResult fun _ => ()) count h

def close (h : Host) : Attempt Host Screen := (h.tell (Session.summary h), .ok h.machine.screen)

/-- Loads a program, makes steps and logs a summary unless there was a fault.
The number of steps is asked for when the program is there. -/
def play (files : Files) (rom : String) (count : Except Fault Nat) (h : Host) :
    Attempt Host Screen :=
  (h.loadFile files rom).andThen fun loaded _ =>
    match count with
    | .ok n => (steps n loaded).andThen fun ended _ => close ended
    | .error fault => (loaded, .error fault)

def run (files : Files) (rom : String) (count : Except Fault Nat) (setup : HostSetup)
    (log : Log) : Attempt Log Screen :=
  match Host.create setup log with
  | .ok host => (play files rom count host).mapState Host.log
  | .error fault => (log, .error fault)

end Headless

namespace CommandLine

/-- Whether a fault is reported by the program rather than left to its caller:
those of program files and of unknown opcodes are. -/
def reports : Fault → Bool
  | .programTooLarge _ _ => true
  | .unknownOpcode _ _ => true
  | .fileMissing _ => true
  | .fileIsDirectory _ => true
  | .fileIsNoDirectory _ => true
  | .fileNameTooLong _ => true
  | _ => false

def hostSetup (o : Options) : HostSetup where
  seed := o.seed
  coupled := !o.decoupleTimers
  strict := o.strict
  trace := o.logLevel == "DEBUG"

def sessionSetup (o : Options) (silence : Option String) : SessionSetup where
  rom := o.rom
  scale := o.scale
  batch := o.ipf.toNat
  scheme := o.colors
  coupled := !o.decoupleTimers
  strict := o.strict
  seed := o.seed
  blank := o.blank
  silence := silence

/-- The number of steps without a window, none below zero, refused if it was
left blank. -/
def stepCount (o : Options) (count : Int) : Except Fault Nat :=
  (Setting.require o.blank .headless).map fun _ => count.toNat

def headlessRun (o : Options) (count : Int) (files : Files) (log : Log) : Attempt Log Screen :=
  match Setting.require o.blank .seed with
  | .ok () => Headless.run files o.rom (stepCount o count) (hostSetup o) log
  | .error fault => (log, .error fault)

def headless (o : Options) (count : Int) (files : Files) (log : Log) : Transcript :=
  let ended := headlessRun o count files log
  { paints := #[], overlays := #[], beeps := 0, log := ended.1, result := ended.2 }

def transcript (o : Options) (around : Surroundings) (log : Log) : Transcript :=
  match o.headless with
  | some count => headless o count around.files log
  | none => Session.run around.files (sessionSetup o around.silence) log around.script

def conclude (o : Options) (t : Transcript) : Ending × List String :=
  match t.result with
  | .ok screen =>
    (.status 0, t.log.printed.toList ++ if o.dumpDisplay then [screen.text "#" "."] else [])
  | .error fault =>
    if reports fault then
      (.status 1, (t.log.report (.message ⟨"ERROR", fault.message⟩)).printed.toList)
    else (.uncaught fault, t.log.printed.toList)

def unbegun (ending : Ending) : Outcome where
  ending := ending
  output := []
  paints := #[]
  overlays := #[]
  beeps := 0

def openLog (o : Options) (around : Surroundings) : Log :=
  Log.create { threshold := o.logLevel, coloured := around.terminal } around.clock

def perform (o : Options) (around : Surroundings) : Outcome :=
  let t := transcript o around (openLog o around)
  let ended := conclude o t
  { ending := ended.1
    output := ended.2
    paints := t.paints
    overlays := t.overlays
    beeps := t.beeps }

/-- The program with options that were read. Without a threshold there is no
log and no run. -/
def execute (o : Options) (around : Surroundings) : Outcome :=
  match Setting.require o.blank .logLevel with
  | .ok () => perform o around
  | .error fault => unbegun (.uncaught fault)

def refusalStatus : Options.Refusal → Nat
  | .help => 0
  | .wrong => 2

def run (arguments : List String) (around : Surroundings) : Outcome :=
  match Options.ofArguments arguments with
  | .ok o => execute o around
  | .error refusal => unbegun (.status (refusalStatus refusal))

end CommandLine

end ChipEight
