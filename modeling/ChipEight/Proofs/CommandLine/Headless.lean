import ChipEight.CommandLine
import ChipEight.Proofs.Host.Reporting
import ChipEight.Proofs.Screen.Text
import ChipEight.Proofs.Session.Turn

/-!
The program without a window, from its arguments to its status and all that it prints. A
program that is too large is refused before any step. Otherwise the machine makes the
steps, each reported as it is made, and a strict one stops at the first unknown opcode.
Only a run that came to its end logs a summary and prints the screen.
-/

namespace ChipEight

theorem Setting.require_of_not_mem {blank : List Setting} {s : Setting} (h : s ∉ blank) :
    require blank s = .ok () := by
  rw [require, if_neg]
  rwa [List.contains_iff_mem]

/-- A machine with bytes written from the origin of programs on, however many they are. -/
def Machine.holding (m : Machine) (bytes : List UInt8) : Machine :=
  { m with memory := m.memory.writeBytes Program.origin bytes }

def Report.ofMachine : Report → Bool
  | .loaded _ _ | .unknownOpcode _ | .tone _ | .executed _ _ => true
  | .message _ | .sessionEnd _ => false

theorem HostSetup.ofMachine_told (setup : HostSetup) (e : Event) :
    (setup.told e).all Report.ofMachine = true := by
  unfold told Event.reports
  cases setup.trace <;> cases setup.stops e <;> cases e.unknown <;> cases e.tone <;> rfl

theorem Host.log_tell (h : Host) (r : Report) : (h.tell r).log = h.log.report r := rfl

namespace Log

def summary (seconds : Float) (instructions : Int) (unknownOpcodes tones : Nat) : List Message :=
  [⟨"INFO", ruler⟩,
   ⟨"INFO", "Session ended after " ++ Text.fixedPlaces 1 seconds ++ "s"⟩,
   ⟨"INFO", "  instructions: " ++ toString instructions⟩,
   ⟨"INFO", "  unknown opcodes: " ++ toString unknownOpcodes⟩,
   ⟨"INFO", "  tones: " ++ toString tones⟩,
   ⟨"INFO", ruler⟩]

/-- The summary of a host is printed behind what was printed before, unless the log does
not show it. -/
theorem exists_report_summary (log : Log) (h : Host) : ∃ seconds lines,
    (log.report (Session.summary h)).printed = log.printed ++ lines ∧
      List.Forall₂ log.Shows
        (if log.shows "INFO" then summary seconds h.steps log.unknownOpcodes log.tones else [])
        lines.toList := by
  obtain ⟨lines, clock, hreport, hlines⟩ := log.exists_report_eq (Session.summary h)
  refine ⟨log.elapsed, lines, by rw [hreport], ?_⟩
  have hmessages : (log.count (Session.summary h)).messages (Session.summary h) =
      summary log.elapsed h.steps log.unknownOpcodes log.tones := rfl
  have hlevel : ∀ m ∈ summary log.elapsed h.steps log.unknownOpcodes log.tones,
      m.level = "INFO" := by
    simp [summary]
  rw [hmessages] at hlines
  split
  case isTrue hshown =>
    rw [List.filter_eq_self.2 fun m hm => (hlevel m hm) ▸ hshown] at hlines
    exact hlines
  case isFalse hshown =>
    rw [List.filter_eq_nil_iff.2 fun m hm => (hlevel m hm) ▸ hshown] at hlines
    exact hlines

end Log

namespace Headless

/-- A host that made the steps of a batch and told of each as it was made. -/
def stepped (n : Nat) (h : Host) : Host :=
  { h with
    machine := (h.batch n).1
    steps := h.steps + (h.batch n).2.length
    journal := h.journal.record h.setup ((h.batch n).2.flatMap h.setup.told) }

theorem steps_eq (n : Nat) (h : Host) : steps n h =
    (stepped n h,
      match (h.batch n).2.find? h.setup.stops with
      | some e => .error (.unknownOpcode e.instruction.toNat e.address.toNat)
      | none => .ok ()) := by
  induction n generalizing h with
  | zero =>
    rw [steps, Attempt.times, stepped, h.batch_zero, List.flatMap_nil, Journal.record_nil]
    rfl
  | succ n ih =>
    have hfirst : steps (n + 1) h =
        (h.step.mapResult fun _ => ()).andThen fun after _ => steps n after := rfl
    rw [hfirst, h.step_eq_told]
    cases hstop : h.setup.stops h.machine.step.2 with
    | true =>
      rw [stepped, h.batch_succ_of_stop n hstop, List.find?_singleton, hstop,
        List.flatMap_singleton]
      rfl
    | false =>
      let after : Host :=
        { h.advance with journal := h.journal.record h.setup (h.setup.told h.machine.step.2) }
      have hlength : h.steps + ((h.advance.batch n).2.length + 1) =
          h.advance.steps + (h.advance.batch n).2.length := by
        simp only [Host.advance]
        omega
      rw [stepped, h.batch_succ n hstop, List.find?_cons, hstop, List.flatMap_cons,
        Journal.record_append, List.length_cons, hlength]
      exact ih after

def loaded (setup : HostSetup) (key : RandomKey) (log : Log) (rom : String) (bytes : List UInt8) :
    Host :=
  { Host.fresh setup key log with
    machine := (Machine.fresh key setup.coupled).holding bytes
    journal := (⟨log, 0⟩ : Journal).record setup [.loaded rom bytes.length] }

section

variable {files : Files} {rom : String} {bytes : List UInt8} {setup : HostSetup} {key : RandomKey}
  {made : Machine × List Event} (n : Nat) (log : Log)
  (hkey : RandomKey.ofSeed setup.seed = .ok key) (hfile : files.read rom = .ok bytes)
include hkey hfile

theorem run_of_tooLarge (hlarge : 3584 < bytes.length) :
    run files rom (.ok n) setup log =
      (log.reportAll [], .error (.programTooLarge bytes.length 3584)) := by
  have hprogram : files.program rom = .error (.programTooLarge bytes.length 3584) := by
    rw [Files.program, hfile]
    exact dif_neg (Nat.not_le.2 hlarge)
  rw [run, Host.create, hkey]
  simp only [Except.map, play, Host.loadFile, hprogram]
  rfl

variable (hfits : bytes.length ≤ 3584)
include hfits

theorem run_eq_steps : run files rom (.ok n) setup log =
    ((steps n (loaded setup key log rom bytes)).andThen fun ended _ => close ended).mapState
      Host.log := by
  have hprogram : files.program rom = .ok ⟨bytes, hfits⟩ := by
    rw [Files.program, hfile]
    exact dif_pos hfits
  have hloaded : (Host.fresh setup key log).load rom ⟨bytes, hfits⟩ =
      loaded setup key log rom bytes := by
    rw [Host.load, Journal.tell_eq_record setup _ _ rfl]
    rfl
  rw [run, Host.create, hkey]
  simp only [Except.map, play, Host.loadFile, hprogram, hloaded]
  rfl

variable (hmade : made = ((Machine.fresh key setup.coupled).holding bytes).run n)
include hmade

/-- A run that meets a stop is a fault, and what it told is all that comes of it. -/
theorem run_of_stop {e : Event} (hstop : made.2.find? setup.stops = some e) :
    ∃ events : List Event, run files rom (.ok n) setup log =
      (log.reportAll (.loaded rom bytes.length :: events.flatMap setup.told),
        .error (.unknownOpcode e.instruction.toNat e.address.toNat)) := by
  rw [hmade] at hstop
  have hfound := ((loaded setup key log rom bytes).find?_batch n).trans hstop
  refine ⟨((loaded setup key log rom bytes).batch n).2, ?_⟩
  rw [run_eq_steps n log hkey hfile hfits, steps_eq, hfound]
  rfl

/-- A run without a stop logs its summary, and its last screen is the result. -/
theorem run_of_no_stop (hgo : made.2.find? setup.stops = none) :
    ∃ h : Host,
      run files rom (.ok n) setup log = (h.log.report (Session.summary h), .ok made.1.screen) ∧
      h.steps = n ∧
      h.log = log.reportAll (.loaded rom bytes.length :: made.2.flatMap setup.told) := by
  rw [hmade] at hgo
  have hfound := ((loaded setup key log rom bytes).find?_batch n).trans hgo
  have hbatch : (loaded setup key log rom bytes).batch n = made :=
    (Host.batch_eq_run n fun e he =>
      Bool.eq_false_iff.2 (List.find?_eq_none.1 hfound e he)).trans hmade.symm
  refine ⟨stepped n (loaded setup key log rom bytes), ?_, ?_, ?_⟩
  · have hscreen : (stepped n (loaded setup key log rom bytes)).machine.screen = made.1.screen := by
      rw [stepped, hbatch]
    rw [run_eq_steps n log hkey hfile hfits, steps_eq, hfound, ← hscreen]
    simp only [Attempt.andThen_ok, close, Attempt.mapState, Host.log_tell]
  · rw [stepped, hbatch, hmade, Machine.length_run]
    exact Nat.zero_add n
  · rw [stepped, hbatch]
    rfl

end

end Headless

namespace CommandLine

variable {arguments : List String} {around : Surroundings} {o : Options} {n : Int}
  {bytes : List UInt8}

variable (around) in
/-- With a number of steps, and all settings given that such a run needs, the program is
the run without a window and its conclusion. -/
theorem run_eq_headless (hargs : Options.ofArguments arguments = .ok o)
    (hcount : o.headless = some n)
    (hgiven : ∀ s ∈ [Setting.seed, .headless, .logLevel], s ∉ o.blank) :
    ∃ t : Transcript,
      ((run arguments around).ending, (run arguments around).output) = conclude o t ∧
        (t.log, t.result) =
          Headless.run around.files o.rom (.ok n.toNat) (hostSetup o) (openLog o around) := by
  have hlevel := Setting.require_of_not_mem (hgiven .logLevel (by decide))
  have hseed := Setting.require_of_not_mem (hgiven .seed (by decide))
  have hsteps : stepCount o n = .ok n.toNat := by
    rw [stepCount, Setting.require_of_not_mem (hgiven .headless (by decide))]
    rfl
  refine ⟨transcript o around (openLog o around), ?_, ?_⟩
  · rw [run, hargs]
    simp only [execute, hlevel, perform]
  · rw [transcript, hcount]
    simp only [headless, headlessRun, hseed, hsteps]

/-- Whether a run without a window fails, by the bytes of its program and the events of
the steps that are asked for. -/
def Fails (o : Options) (bytes : List UInt8) (events : List Event) : Prop :=
  3584 < bytes.length ∨ o.strict = true ∧ ∃ e ∈ events, e.unknown = true

instance (o : Options) (bytes : List UInt8) (events : List Event) :
    Decidable (Fails o bytes events) := inferInstanceAs (Decidable (_ ∨ _))

variable (bytes) in
theorem fails_of_stop {e : Event} {events : List Event}
    (hstop : events.find? (hostSetup o).stops = some e) :
    Fails o bytes events ∧ events.find? Event.unknown = some e := by
  have hstops := List.find?_some hstop
  rw [HostSetup.stops, Bool.and_eq_true] at hstops
  obtain ⟨hunknown, hstrict⟩ := hstops
  rw [HostSetup.stops_of_strict hstrict] at hstop
  exact ⟨.inr ⟨hstrict, e, List.mem_of_find?_eq_some hstop, hunknown⟩, hstop⟩

theorem not_fails_of_no_stop {events : List Event} (hfits : bytes.length ≤ 3584)
    (hgo : events.find? (hostSetup o).stops = none) : ¬ Fails o bytes events := by
  rintro (hlarge | ⟨hstrict, e, he, hunknown⟩)
  · omega
  · refine List.find?_eq_none.1 hgo e he ?_
    rw [HostSetup.stops, Bool.and_eq_true]
    exact ⟨hunknown, hstrict⟩

/-- What a run leaves that came to its end: status 0, the messages of the machine at work,
the summary if the log shows it, and the lines of the screen behind all others. -/
structure Succeeded (log : Log) (n : Int) (made : Machine × List Event) (outcome : Outcome) :
    Prop where
  ending : outcome.ending = .status 0
  output : ∃ told seconds summary,
    outcome.output =
      (log.reportAll told).printed.toList ++ summary ++ [made.1.screen.text "#" "."] ∧
    (∀ r ∈ told, r.ofMachine = true) ∧
    List.Forall₂ log.Shows
      (if log.shows "INFO" then
        Log.summary seconds (max n 0) (made.2.countP Event.unknown) (made.2.countP Event.tone)
      else []) summary
  lines : ∃ earlier, outcome.output.flatMap printedLines =
    earlier ++ List.ofFn (made.1.screen.rowText '#' '.')

/-- What a run leaves that was refused or stopped: status 1, the messages of the machine at
work, and a last one with the reason. -/
structure Failed (log : Log) (bytes : List UInt8) (events : List Event) (outcome : Outcome) :
    Prop where
  ending : outcome.ending = .status 1
  output : ∃ (told : List Report) (fault : Fault),
    outcome.output =
      (log.reportAll (told ++ [.message ⟨"ERROR", fault.message⟩])).printed.toList ∧
    (∀ r ∈ told, r.ofMachine = true) ∧
    (3584 < bytes.length ∧ fault = .programTooLarge bytes.length 3584 ∨
      ∃ e, events.find? Event.unknown = some e ∧
        fault = .unknownOpcode e.instruction.toNat e.address.toNat)

/-- A fault of a kind that the program reports gives status 1 and a last message. -/
theorem run_of_fault (hargs : Options.ofArguments arguments = .ok o)
    (hcount : o.headless = some n)
    (hgiven : ∀ s ∈ [Setting.seed, .headless, .logLevel], s ∉ o.blank)
    {told : List Report} {fault : Fault} (hreports : reports fault = true)
    (hrun : Headless.run around.files o.rom (.ok n.toNat) (hostSetup o) (openLog o around) =
      ((openLog o around).reportAll told, .error fault)) :
    (run arguments around).ending = .status 1 ∧
      (run arguments around).output = ((openLog o around).reportAll
        (told ++ [.message ⟨"ERROR", fault.message⟩])).printed.toList := by
  obtain ⟨t, hended, ht⟩ := run_eq_headless around hargs hcount hgiven
  rw [hrun, Prod.mk.injEq] at ht
  rw [conclude, ht.2] at hended
  simp only [hreports, if_true, ht.1, Prod.mk.injEq] at hended
  rw [Log.reportAll_append]
  exact hended

/-- Without a fault the status is 0, and the screen is printed behind all messages. -/
theorem run_of_screen (hargs : Options.ofArguments arguments = .ok o)
    (hcount : o.headless = some n) (hdump : o.dumpDisplay = true)
    (hgiven : ∀ s ∈ [Setting.seed, .headless, .logLevel], s ∉ o.blank)
    {log : Log} {screen : Screen}
    (hrun : Headless.run around.files o.rom (.ok n.toNat) (hostSetup o) (openLog o around) =
      (log, .ok screen)) :
    (run arguments around).ending = .status 0 ∧
      (run arguments around).output = log.printed.toList ++ [screen.text "#" "."] := by
  obtain ⟨t, hended, ht⟩ := run_eq_headless around hargs hcount hgiven
  rw [hrun, Prod.mk.injEq] at ht
  rw [conclude, ht.2] at hended
  simp only [hdump, if_true, ht.1, Prod.mk.injEq] at hended
  exact hended

theorem ofMachine_of_mem {rom : String} {size : Int} {setup : HostSetup} {events : List Event}
    {r : Report} (hr : r ∈ .loaded rom size :: events.flatMap setup.told) : r.ofMachine = true := by
  obtain rfl | hr := List.mem_cons.1 hr
  · rfl
  · obtain ⟨e, -, he⟩ := List.mem_flatMap.1 hr
    exact List.all_eq_true.1 (setup.ofMachine_told e) r he

/-- The screen is printed in as many lines as it has rows. -/
theorem printedLines_screen (screen : Screen) :
    printedLines (screen.text "#" ".") = List.ofFn (screen.rowText '#' '.') := by
  have hlines : screen.rowLine "#" "." = screen.rowText '#' '.' :=
    funext (screen.rowLine_singleton '#' '.')
  rw [screen.printedLines_text (by decide) (by decide) (by decide), hlines]

section

variable {key : RandomKey} (hargs : Options.ofArguments arguments = .ok o)
  (hcount : o.headless = some n)
  (hgiven : ∀ s ∈ [Setting.seed, .headless, .logLevel], s ∉ o.blank)
  (hkey : RandomKey.ofSeed o.seed = .ok key) (hfile : around.files.read o.rom = .ok bytes)
include hargs hcount hgiven hkey hfile

theorem failed_of_tooLarge (hlarge : 3584 < bytes.length) (events : List Event) :
    Failed (openLog o around) bytes events (run arguments around) := by
  have hrun : Headless.run around.files o.rom (.ok n.toNat) (hostSetup o) (openLog o around) = _ :=
    Headless.run_of_tooLarge n.toNat (openLog o around) hkey hfile hlarge
  obtain ⟨hended, houtput⟩ := run_of_fault hargs hcount hgiven rfl hrun
  exact ⟨hended, [], _, houtput, fun r hr => absurd hr List.not_mem_nil, .inl ⟨hlarge, rfl⟩⟩

variable {made : Machine × List Event} (hfits : bytes.length ≤ 3584)
  (hmade : made = ((Machine.fresh key (hostSetup o).coupled).holding bytes).run n.toNat)
include hfits hmade

theorem failed_of_stop {e : Event} (hstop : made.2.find? (hostSetup o).stops = some e) :
    Failed (openLog o around) bytes made.2 (run arguments around) := by
  obtain ⟨hfails, hfirst⟩ := fails_of_stop bytes hstop
  obtain ⟨events, hrun⟩ :=
    Headless.run_of_stop n.toNat (openLog o around) hkey hfile hfits hmade hstop
  obtain ⟨hended, houtput⟩ := run_of_fault hargs hcount hgiven rfl hrun
  exact ⟨hended, _, _, houtput, fun r hr => ofMachine_of_mem hr, .inr ⟨e, hfirst, rfl⟩⟩

theorem succeeded_of_no_stop (hdump : o.dumpDisplay = true)
    (hgo : made.2.find? (hostSetup o).stops = none) :
    Succeeded (openLog o around) n made (run arguments around) := by
  obtain ⟨hunknown, htones⟩ := (hostSetup o).countP_flatMap_told
    fun e he => Bool.eq_false_iff.2 (List.find?_eq_none.1 hgo e he)
  obtain ⟨h, hrun, hsteps, hlog⟩ :=
    Headless.run_of_no_stop n.toNat (openLog o around) hkey hfile hfits hmade hgo
  obtain ⟨hended, houtput⟩ := run_of_screen hargs hcount hdump hgiven hrun
  obtain ⟨seconds, lines, hprinted, hshown⟩ := h.log.exists_report_summary h
  rw [hprinted, Array.toList_append, hlog] at houtput
  have hcounted := (openLog o around).counters_reportAll
    (.loaded o.rom bytes.length :: made.2.flatMap (hostSetup o).told)
  obtain ⟨hshows, hShows⟩ := (openLog o around).shows_reportAll
    (.loaded o.rom bytes.length :: made.2.flatMap (hostSetup o).told)
  have hnew : (openLog o around).unknownOpcodes = 0 ∧ (openLog o around).tones = 0 := ⟨rfl, rfl⟩
  rw [List.countP_cons_of_neg Bool.false_ne_true, hunknown, hnew.1, Nat.zero_add,
    List.countP_cons_of_neg Bool.false_ne_true, htones, hnew.2, Nat.zero_add] at hcounted
  refine ⟨hended, ⟨_, seconds, lines.toList, houtput, fun r hr => ofMachine_of_mem hr, ?_⟩, ?_⟩
  · rw [hlog, hshows, hShows, hcounted.1, hcounted.2, hsteps, Int.toNat_eq_max] at hshown
    exact hshown
  · rw [houtput, List.flatMap_append, List.flatMap_singleton, printedLines_screen]
    exact ⟨_, rfl⟩

end

/-- The program without a window, with a readable program file and a seed of 64 bits. It
has status 1 if the program is too large or the machine is strict and one of its steps is an
unknown opcode, and status 0 otherwise. -/
theorem headless_run (hargs : Options.ofArguments arguments = .ok o)
    (hcount : o.headless = some n) (hdump : o.dumpDisplay = true)
    (hgiven : ∀ s ∈ [Setting.seed, .headless, .logLevel], s ∉ o.blank)
    (hseed : -2 ^ 63 ≤ o.seed ∧ o.seed < 2 ^ 63) (hfile : around.files.read o.rom = .ok bytes) :
    ∃ key made, RandomKey.ofSeed o.seed = .ok key ∧
      made = ((Machine.fresh key (!o.decoupleTimers)).holding bytes).run n.toNat ∧
      ((run arguments around).ending = .status 1 ↔ Fails o bytes made.2) ∧
      (Fails o bytes made.2 → Failed (openLog o around) bytes made.2 (run arguments around)) ∧
      (¬ Fails o bytes made.2 → Succeeded (openLog o around) n made (run arguments around)) := by
  obtain ⟨key, hkey⟩ : ∃ key, RandomKey.ofSeed o.seed = .ok key :=
    ⟨_, if_pos ⟨hseed.1, Int.le_of_lt_add_one hseed.2⟩⟩
  obtain ⟨made, hmade⟩ : ∃ made,
      made = ((Machine.fresh key (!o.decoupleTimers)).holding bytes).run n.toNat := ⟨_, rfl⟩
  refine ⟨key, made, hkey, hmade, ?_⟩
  by_cases hlarge : 3584 < bytes.length
  case pos =>
    have hfails : Fails o bytes made.2 := .inl hlarge
    have hfailed := failed_of_tooLarge hargs hcount hgiven hkey hfile hlarge made.2
    exact ⟨iff_of_true hfailed.ending hfails, fun _ => hfailed, absurd hfails⟩
  case neg =>
    have hfits : bytes.length ≤ 3584 := Nat.not_lt.1 hlarge
    cases hfound : made.2.find? (hostSetup o).stops with
    | some e =>
      obtain ⟨hfails, -⟩ := fails_of_stop bytes hfound
      have hfailed := failed_of_stop hargs hcount hgiven hkey hfile hfits hmade hfound
      exact ⟨iff_of_true hfailed.ending hfails, fun _ => hfailed, absurd hfails⟩
    | none =>
      have hfine := not_fails_of_no_stop hfits hfound
      have hsucceeded :=
        succeeded_of_no_stop hargs hcount hgiven hkey hfile hfits hmade hdump hfound
      have hstatus : (run arguments around).ending ≠ .status 1 := by
        rw [hsucceeded.ending]
        decide
      exact ⟨iff_of_false hstatus hfine, fun hfails => absurd hfails hfine, fun _ => hsucceeded⟩

def desk : Surroundings where
  files := ⟨fun name =>
    if name = "digit.ch8" then .ok [0xD0, 0x15, 0xFF, 0xFF] else .error (.fileMissing name)⟩
  clock := Clock.ofList []
  script := []
  silence := none
  terminal := false

def strictRun (count : Int) : Options where
  rom := "digit.ch8"
  strict := true
  headless := some count
  dumpDisplay := true

/-- One step draws the digit; the second is too much for a strict machine. -/
theorem headless_run_digit :
    (run ["--strict", "--dump-display", "--headless=1", "digit.ch8"] desk).ending = .status 0 ∧
      (run ["digit.ch8", "--headless", "2", "--dump-display", "--strict"] desk).ending =
        .status 1 := by
  have hargs : Options.ofArguments ["--strict", "--dump-display", "--headless=1", "digit.ch8"] =
      .ok (strictRun 1) := rfl
  have hargs' : Options.ofArguments
      ["digit.ch8", "--headless", "2", "--dump-display", "--strict"] = .ok (strictRun 2) := rfl
  have hgiven (count : Int) :
      ∀ s ∈ [Setting.seed, .headless, .logLevel], s ∉ (strictRun count).blank :=
    fun _ _ => List.not_mem_nil
  have hfile : desk.files.read "digit.ch8" = .ok [0xD0, 0x15, 0xFF, 0xFF] := rfl
  obtain ⟨_, _, hkey, rfl, -, -, hsucceeds⟩ :=
    headless_run hargs rfl rfl (hgiven 1) (by decide) hfile
  obtain ⟨_, _, hkey', rfl, hstatus, -, -⟩ :=
    headless_run hargs' rfl rfl (hgiven 2) (by decide) hfile
  cases hkey
  cases hkey'
  exact ⟨(hsucceeds (by decide +kernel)).ending, hstatus.2 (by decide +kernel)⟩

end CommandLine

end ChipEight
