import ChipEight.Proofs.CommandLine.Headless
import ChipEight.Proofs.Session.Account
import ChipEight.Proofs.Session.Painting

/-!
What is left of a session, however it ended. Once its window is open, a session logs one
summary, as the last thing of all. A fault of its program file or of an unknown opcode is
its result, behind all that the turns before have shown and logged.
-/

namespace ChipEight

namespace Session

def opening (setup : SessionSetup) : List Report :=
  (match setup.silence with
    | some reason => [.message ⟨"WARNING", "Audio disabled: " ++ reason⟩]
    | none => []) ++
  [.message ⟨"INFO", "Controls: ESC=Quit, P=Pause, BACKSPACE=Reset, F2=Debug"⟩]

def ready (setup : SessionSetup) (key : RandomKey) (log : Log) : Session :=
  start
    { Host.fresh (hostSetup setup) key log with
      journal := (⟨log, 0⟩ : Journal).record (hostSetup setup) (opening setup) }

def loaded (setup : SessionSetup) (key : RandomKey) (log : Log) (p : Program) : Session :=
  { ready setup key log with host := (ready setup key log).host.load setup.rom p }

/-- What the turns of a session executed that began. None begins if there is no window or
no program. -/
def history (files : Files) (setup : SessionSetup) (log : Log)
    (script : List (List InputEvent)) : List Played :=
  match begin setup log with
  | .error _ => []
  | .ok (palette, ready) =>
    match ready.withHost (ready.host.loadFile files setup.rom) with
    | (loaded, .ok _) => course files setup palette (script ++ [[.quit]]) loaded
    | (_, .error _) => []

def sinceReset (files : Files) (setup : SessionSetup) (log : Log)
    (script : List (List InputEvent)) : List Event :=
  let taken := history files setup log script
  let begun := (script ++ [[InputEvent.quit]]).take taken.length
  (taken.drop (Script.lastReset begun)).flatMap Played.events

/-- A session ends with a summary of these counters. It is told as the last of all reports
and as the only one, and its lines are printed behind all others. -/
def EndsWithSummary (log : Log) (instructions : Int) (unknownOpcodes tones : Nat)
    (t : Transcript) : Prop :=
  ∃ told seconds lines, (∀ r ∈ told, r.isSummary = false) ∧
    t.log = log.reportAll (told ++ [.sessionEnd [("instructions", .integer instructions)]]) ∧
    t.log.printed = (log.reportAll told).printed ++ lines ∧
    List.Forall₂ log.Shows (Log.summary seconds instructions unknownOpcodes tones) lines.toList

/-- A session ended in the turn behind `before` at an unknown opcode: what was shown is what
the turns before have shown, and what they have logged comes first. -/
structure StoppedBehind (files : Files) (setup : SessionSetup) (log : Log) (palette : Palette)
    (script before : List (List InputEvent)) (s : Session) (t : Transcript) : Prop where
  begun : ∃ events rest, script ++ [[InputEvent.quit]] = before ++ events :: rest
  turns : (history files setup log script).length = before.length + 1
  underway : Underway files setup log palette before s
  paints : t.paints = s.paints
  overlays : t.overlays = s.overlays
  log : ∃ told, (∀ r ∈ told, r.isSummary = false) ∧ t.log = s.host.log.reportAll (told ++
    [.sessionEnd [("instructions", .integer (sinceReset files setup log script).length)]])

/-- What is left of a session whose window was opened. -/
structure Closed (files : Files) (setup : SessionSetup) (log : Log) (palette : Palette)
    (script : List (List InputEvent)) (t : Transcript) : Prop where
  summary : EndsWithSummary log (sinceReset files setup log script).length
    (Played.unknowns (hostSetup setup) (history files setup log script))
    (Played.tones (hostSetup setup) (history files setup log script)) t
  beeps : t.beeps = if setup.silence.isNone then
    Played.tones (hostSetup setup) (history files setup log script) else 0
  of_load_fault : ∀ fault, files.program setup.rom = .error fault →
    t.result = .error fault ∧ t.paints = #[] ∧ t.overlays = #[] ∧
      t.log = log.reportAll (opening setup ++ [.sessionEnd [("instructions", .integer 0)]])
  of_unknown : setup.strict = true → ∀ e : Event,
    ((history files setup log script).flatMap Played.events).find? Event.unknown = some e →
      t.result = .error (.unknownOpcode e.instruction.toNat e.address.toNat) ∧
        ∃ before s, StoppedBehind files setup log palette script before s t

variable {files : Files} {setup : SessionSetup} {log : Log} {palette : Palette}
  {script : List (List InputEvent)} {key : RandomKey} {p : Program} {s : Session}

theorem tell_openLog : (⟨openLog setup log, 0⟩ : Journal).tell
    (.message ⟨"INFO", "Controls: ESC=Quit, P=Pause, BACKSPACE=Reset, F2=Debug"⟩) =
      (⟨log, 0⟩ : Journal).record (hostSetup setup) (opening setup) := by
  rw [opening, Journal.record_append, Journal.tell_eq_record _ _ _ rfl]
  congr 1
  unfold openLog
  cases setup.silence with
  | some reason =>
    dsimp only
    rw [← Journal.tell_eq_record _ _ _ rfl]
    rfl
  | none => exact (Journal.record_nil _ _).symm

theorem begin_eq_ready (hscheme : Palette.named setup.scheme = .ok palette)
    (hwindow : Window.check setup.scale setup.rom = .ok ())
    (hgiven : ∀ x ∈ [Setting.colors, .scale, .seed], x ∉ setup.blank)
    (hkey : RandomKey.ofSeed setup.seed = .ok key) :
    begin setup log = .ok (palette, ready setup key log) := by
  have hprepare : prepare setup = .ok palette := by
    unfold prepare
    rw [Setting.require_of_not_mem (hgiven .colors (by decide)),
      Setting.require_of_not_mem (hgiven .scale (by decide)), hscheme, hwindow]
    rfl
  have hcreate (opened : Log) :
      createHost setup opened = .ok (Host.fresh (hostSetup setup) key opened) := by
    unfold createHost
    rw [Setting.require_of_not_mem (hgiven .seed (by decide)), Host.create]
    dsimp only [hostSetup]
    rw [hkey]
    rfl
  unfold begin
  rw [hprepare]
  dsimp only
  rw [hcreate]
  dsimp only [ready, inform, Host.fresh, Host.tell, start]
  rw [tell_openLog]

theorem tells_opening : Tells (hostSetup setup) (opening setup) [] := by
  apply Tells.of_none
  unfold opening
  cases setup.silence <;> simp [Report.isUnknownOpcode, Report.isTone, Report.isSummary]

theorem accounted_loaded (setup : SessionSetup) (key : RandomKey) (log : Log) (p : Program) :
    Accounted setup ⟨log, 0⟩ [] [] (loaded setup key log p) where
  setup_eq := rfl
  length_eq := rfl
  steps := by simp [loaded, ready, start, Host.fresh, Host.load]
  journal := by
    have hload : Tells (hostSetup setup) [.loaded setup.rom p.size] [] :=
      Tells.of_none (by simp [Report.isUnknownOpcode, Report.isTone, Report.isSummary])
    refine ⟨opening setup ++ [.loaded setup.rom p.size], ?_, tells_opening.append hload⟩
    rw [Journal.record_append, ← Journal.tell_eq_record _ _ _ rfl]
    rfl

theorem beeps_close (ended : Attempt Session Unit) :
    (close ended).beeps = ended.1.host.journal.heard := by
  simp only [close, Host.tell, Journal.tell]

/-- What a session was told it has in its log, and its sounds are the tones among it. -/
theorem close_tells (result : Except Fault Unit) {told : List Report} {taken : List Played}
    (hnew : log.unknownOpcodes = 0 ∧ log.tones = 0) (hinfo : log.shows "INFO" = true)
    (hjournal : s.host.journal = (⟨log, 0⟩ : Journal).record (hostSetup setup) told)
    (htold : Tells (hostSetup setup) told taken) :
    EndsWithSummary log s.host.steps (Played.unknowns (hostSetup setup) taken)
        (Played.tones (hostSetup setup) taken) (close (s, result)) ∧
      (close (s, result)).beeps =
        if setup.silence.isNone then Played.tones (hostSetup setup) taken else 0 := by
  have hlog : s.host.log = log.reportAll told := congrArg Journal.log hjournal
  have hclosed : (close (s, result)).log = s.host.log.report (summary s.host) := log_close _
  obtain ⟨hunknowns, htones⟩ := log.counters_reportAll told
  obtain ⟨hshows, hShows⟩ := log.shows_reportAll told
  rw [hnew.1, Nat.zero_add, htold.unknowns] at hunknowns
  rw [hnew.2, Nat.zero_add, htold.tones] at htones
  constructor
  · obtain ⟨seconds, lines, hprinted, hlines⟩ := s.host.log.exists_report_summary s.host
    rw [hlog, hshows, hShows, hinfo, if_pos rfl, hunknowns, htones] at hlines
    refine ⟨told, seconds, lines, htold.noSummary, ?_, ?_, hlines⟩
    · rw [hclosed, hlog, Log.reportAll_concat, summary]
    · rw [hclosed, hprinted, hlog]
  · rw [beeps_close, hjournal, Journal.record]
    simp only [htold.tones, Nat.zero_add, hostSetup]

/-- A turn ended at the unknown opcode of an event: it has shown nothing, and it has logged
no summary. -/
structure Halts (s : Session) (e : Event) (ended : Attempt Session Unit) : Prop where
  result : ended.2 = .error (.unknownOpcode e.instruction.toNat e.address.toNat)
  paints : ended.1.paints = s.paints
  overlays : ended.1.overlays = s.overlays
  log : ∃ told, (∀ r ∈ told, r.isSummary = false) ∧
    ended.1.host.log = s.host.log.reportAll told

theorem halts_turn (palette : Palette) (hp : files.program setup.rom = .ok p) (s : Session)
    (events : List InputEvent) {e : Event}
    (hfound : ((s.handleAll files setup.rom events).1.plays setup).events.find?
      s.host.setup.stops = some e) :
    Halts s e (s.turn files setup palette events) := by
  obtain ⟨-, -, told, hjournal, htold⟩ := host_turn palette hp s events
  obtain ⟨noted, hnoted, hturn⟩ := exists_turn_eq palette hp s events
  obtain ⟨_, hnoted', hoverlays, -⟩ := exists_handleAll_eq hp s events
  obtain rfl := congrArg Prod.fst (hnoted.symm.trans hnoted')
  obtain ⟨hpaints, hsetup, -⟩ := handleAll_ok hp hnoted
  rw [hnoted, ← hsetup] at hfound
  obtain ⟨host, hplayed⟩ := noted.exists_play_eq_error hfound
  rw [hplayed, Attempt.andThen_error] at hturn
  have hlog : (s.turn files setup palette events).1.host.log = s.host.log.reportAll told :=
    congrArg Journal.log hjournal
  rw [hturn] at hlog ⊢
  exact ⟨rfl, hpaints, hoverlays, told, htold.noSummary, hlog⟩

/-- If the turns of a script execute an opcode that the host stops at, the first such ends
the last turn that begins. The turns before it came to their end. -/
theorem halts_turns (hp : files.program setup.rom = .ok p) (hsetup : s.host.setup = hostSetup setup)
    (hrunning : s.running = true) {e : Event} (rest : List (List InputEvent))
    (hfound : ((course files setup palette rest s).flatMap Played.events).find?
      (hostSetup setup).stops = some e) :
    ∃ before events after s', rest = before ++ events :: after ∧
      (course files setup palette rest s).length = before.length + 1 ∧
      turns files setup palette before s = (s', .ok ()) ∧ s'.running = true ∧
      Halts s' e (turns files setup palette rest s) := by
  induction rest generalizing s with
  | nil => cases hfound
  | cons events rest ih =>
    rw [course, List.flatMap_cons, List.find?_append] at hfound
    rw [course, turns]
    cases hstop : ((s.handleAll files setup.rom events).1.plays setup).events.find?
        (hostSetup setup).stops with
    | some x =>
      rw [hstop] at hfound
      cases hfound
      rw [← hsetup] at hstop
      have hhalts := halts_turn palette hp s events hstop
      have hended : s.turn files setup palette events =
          ((s.turn files setup palette events).1,
            .error (.unknownOpcode e.instruction.toNat e.address.toNat)) :=
        Prod.ext rfl hhalts.result
      rw [hended] at hhalts ⊢
      exact ⟨[], events, rest, s, rfl, rfl, rfl, hrunning, hhalts⟩
    | none =>
      rw [hstop, Option.none_or] at hfound
      obtain ⟨hkept, -⟩ := host_turn palette hp s events
      cases hended : s.turn files setup palette events with
      | mk after result =>
        rw [hended] at hfound hkept
        cases result with
        | error fault => cases hfound
        | ok _ =>
          simp only [Attempt.andThen_ok] at hfound ⊢
          split at hfound
          case isFalse hoff => cases hfound
          case isTrue hon =>
            have hafter : after.host.setup = hostSetup setup := hkept.trans hsetup
            obtain ⟨before, next, later, s', hrest, hlength, hturns, hrunning', hhalts⟩ :=
              ih hafter hon hfound
            rw [if_pos hon, if_pos hon]
            refine ⟨events :: before, next, later, s', ?_, ?_, ?_, hrunning', hhalts⟩
            · rw [hrest]
              rfl
            · rw [List.length_cons, List.length_cons, hlength]
            · rw [turns, hended, Attempt.andThen_ok, if_pos hon]
              exact hturns

/-- A session without its program comes to its end before its first turn. -/
theorem closed_of_load_fault (hbegin : begin setup log = .ok (palette, ready setup key log))
    {fault : Fault} (hfault : files.program setup.rom = .error fault)
    (script : List (List InputEvent)) (hnew : log.unknownOpcodes = 0 ∧ log.tones = 0)
    (hinfo : log.shows "INFO" = true) :
    Closed files setup log palette script (run files setup log script) := by
  have hload : (ready setup key log).withHost
      ((ready setup key log).host.loadFile files setup.rom) =
        (ready setup key log, .error fault) := by
    rw [Host.loadFile, hfault]
    rfl
  have hhistory : history files setup log script = [] := by
    rw [history, hbegin]
    dsimp only
    rw [hload]
  have hrun : run files setup log script = close (ready setup key log, .error fault) := by
    rw [run, hbegin]
    dsimp only
    rw [playScript, hload, Attempt.andThen_error]
  have hjournal : (ready setup key log).host.journal =
      (⟨log, 0⟩ : Journal).record (hostSetup setup) (opening setup) := rfl
  obtain ⟨hsummary, hbeeps⟩ := close_tells (.error fault) hnew hinfo hjournal tells_opening
  have hnone : sinceReset files setup log script = [] := by
    simp [sinceReset, hhistory]
  constructor
  · rw [hrun, hnone, hhistory]
    exact hsummary
  · rw [hrun, hhistory]
    exact hbeeps
  · intro fault' hfault'
    cases hfault.symm.trans hfault'
    refine ⟨by rw [hrun]; rfl, by rw [hrun]; rfl, by rw [hrun]; rfl, ?_⟩
    rw [hrun, log_close, Log.reportAll_concat]
    rfl
  · intro _ e hfound
    rw [hhistory] at hfound
    cases hfound

theorem load_ready (hp : files.program setup.rom = .ok p) (key : RandomKey) (log : Log) :
    (ready setup key log).withHost ((ready setup key log).host.loadFile files setup.rom) =
      (loaded setup key log p, .ok ()) := by
  rw [Host.loadFile, hp]
  rfl

section

variable (hbegin : begin setup log = .ok (palette, ready setup key log))
  (hp : files.program setup.rom = .ok p) (script : List (List InputEvent))

include hbegin hp

theorem history_eq_course : history files setup log script =
    course files setup palette (script ++ [[.quit]]) (loaded setup key log p) := by
  rw [history, hbegin]
  dsimp only
  rw [load_ready hp key log]

theorem run_eq_close : run files setup log script =
    close (turns files setup palette (script ++ [[.quit]]) (loaded setup key log p)) := by
  rw [run, hbegin]
  dsimp only
  rw [playScript, load_ready hp key log, Attempt.andThen_ok]

theorem accounted_turns :
    Accounted setup ⟨log, 0⟩
      ((script ++ [[InputEvent.quit]]).take (history files setup log script).length)
      (history files setup log script)
      (turns files setup palette (script ++ [[.quit]]) (loaded setup key log p)).1 := by
  rw [history_eq_course hbegin hp script]
  have hall := (accounted_loaded setup key log p).turns palette hp (script ++ [[InputEvent.quit]])
  rwa [List.nil_append, List.nil_append] at hall

/-- The summary of a session tells what was executed since the last reset. -/
theorem steps_turns :
    (turns files setup palette (script ++ [[.quit]]) (loaded setup key log p)).1.host.steps =
      (sinceReset files setup log script).length :=
  (accounted_turns hbegin hp script).steps

/-- A strict session that executes an unknown opcode ends at the first. -/
theorem exists_stoppedBehind (hstrict : setup.strict = true) {e : Event}
    (hfound : ((history files setup log script).flatMap Played.events).find? Event.unknown =
      some e) :
    (run files setup log script).result =
        .error (.unknownOpcode e.instruction.toNat e.address.toNat) ∧
      ∃ before s, StoppedBehind files setup log palette script before s
        (run files setup log script) := by
  have hstops : (hostSetup setup).stops = Event.unknown := HostSetup.stops_of_strict hstrict
  have hhistory := history_eq_course hbegin hp script
  rw [← hstops, hhistory] at hfound
  obtain ⟨before, events, rest, s, hscript, hlength, hturns, hrunning, hhalts⟩ :=
    halts_turns hp rfl rfl _ hfound
  obtain ⟨told, hnone, hlog⟩ := hhalts.log
  rw [run_eq_close hbegin hp script]
  constructor
  · rw [close, hhalts.result]
    rfl
  · refine ⟨before, s, ⟨events, rest, hscript⟩, ?_,
      ⟨_, _, hbegin, load_ready hp key log, hturns, hrunning⟩,
      hhalts.paints, hhalts.overlays, told, hnone, ?_⟩
    · rw [hhistory, hlength]
    · rw [log_close, hlog, summary, steps_turns hbegin hp script, Log.reportAll_concat]

/-- A session with its program ends behind all turns that began, or in the last of them. -/
theorem closed_of_program (hnew : log.unknownOpcodes = 0 ∧ log.tones = 0)
    (hinfo : log.shows "INFO" = true) :
    Closed files setup log palette script (run files setup log script) := by
  obtain ⟨told, hjournal, htold⟩ := (accounted_turns hbegin hp script).journal
  obtain ⟨hsummary, hbeeps⟩ := close_tells (turns files setup palette (script ++ [[.quit]])
    (loaded setup key log p)).2 hnew hinfo hjournal htold
  rw [steps_turns hbegin hp script] at hsummary
  have hrun := run_eq_close hbegin hp script
  constructor
  · rw [hrun]
    exact hsummary
  · rw [hrun]
    exact hbeeps
  · intro fault hfault
    cases hfault.symm.trans hp
  · intro hstrict e hfound
    exact exists_stoppedBehind hbegin hp script hstrict hfound

end

/-- Once its window is open, a session is closed with its summary, whether it ends by its
script, by a fault of its program file or at an unknown opcode. -/
theorem run_closes_with_summary {style : LogStyle} {clock : Clock} (files : Files)
    (script : List (List InputEvent)) (hscheme : Palette.named setup.scheme = .ok palette)
    (hwindow : Window.check setup.scale setup.rom = .ok ())
    (hgiven : ∀ x ∈ [Setting.colors, .scale, .seed], x ∉ setup.blank)
    (hseed : -2 ^ 63 ≤ setup.seed ∧ setup.seed < 2 ^ 63)
    (hlevel : Level.severity style.threshold ≤ 1) :
    Closed files setup (Log.create style clock) palette script
      (run files setup (Log.create style clock) script) := by
  obtain ⟨key, hkey⟩ : ∃ key, RandomKey.ofSeed setup.seed = .ok key :=
    ⟨_, if_pos ⟨hseed.1, Int.le_of_lt_add_one hseed.2⟩⟩
  have hbegin : begin setup (Log.create style clock) =
      .ok (palette, ready setup key (Log.create style clock)) :=
    begin_eq_ready hscheme hwindow hgiven hkey
  have hnew : (Log.create style clock).unknownOpcodes = 0 ∧ (Log.create style clock).tones = 0 :=
    ⟨rfl, rfl⟩
  have hinfo : (Log.create style clock).shows "INFO" = true := decide_eq_true hlevel
  cases hp : files.program setup.rom with
  | error fault => exact closed_of_load_fault hbegin hp script hnew hinfo
  | ok p => exact closed_of_program hbegin hp script hnew hinfo

def freshLog : Log := Log.create {} (Clock.ofList [])

def vastSetup : SessionSetup := { rom := "d.ch8", scale := 1000000 }

/-- Its window is refused before anything is logged, and there is no summary. -/
theorem no_summary_of_vast :
    let t := run clearingFiles vastSetup freshLog [[]]
    (Palette.named vastSetup.scheme = .ok Palette.classic ∧ 1 ≤ vastSetup.scale ∧
      vastSetup.blank = [] ∧ (-2 ^ 63 ≤ vastSetup.seed ∧ vastSetup.seed < 2 ^ 63) ∧
      freshLog.shows "INFO" = true) ∧
    t.result = .error (.windowTooLarge 64000000 32000000) ∧
    ¬ ∃ instructions unknownOpcodes tones,
      EndsWithSummary freshLog instructions unknownOpcodes tones t := by
  refine ⟨⟨rfl, by decide, rfl, by decide, by decide⟩, rfl, ?_⟩
  rintro ⟨instructions, unknownOpcodes, tones, told, seconds, lines, -, -, hprinted, hlines⟩
  have hnothing : (run clearingFiles vastSetup freshLog [[]]).log.printed = #[] := rfl
  rw [hnothing] at hprinted
  obtain ⟨-, rfl⟩ := Array.append_eq_empty_iff.1 hprinted.symm
  cases hlines

def faltering : Program := ⟨[0x60, 0x01, 0xF0, 0x18, 0xFF, 0xFF], by decide⟩

def falteringFiles : Files := ⟨fun _ => .ok faltering.bytes⟩

def falteringSetup : SessionSetup :=
  { rom := "falter.ch8", scale := 1, batch := 2, strict := true }

def falteringScript : List (List InputEvent) := [[.other], [.keyDown "BACKSPACE"], [], []]

/-- The third turn meets the opcode. Two tones were heard, and three instructions were
executed since the program was started over. -/
theorem run_closes_with_summary_faltering :
    let t := run falteringFiles falteringSetup freshLog falteringScript
    EndsWithSummary freshLog 3 0 2 t ∧ t.beeps = 2 ∧
      t.result = .error (.unknownOpcode 0xFFFF 0x204) ∧
      ∃ before s, StoppedBehind falteringFiles falteringSetup freshLog Palette.classic
        falteringScript before s t := by
  have hclosed : Closed falteringFiles falteringSetup freshLog Palette.classic falteringScript
      (run falteringFiles falteringSetup freshLog falteringScript) :=
    run_closes_with_summary falteringFiles falteringScript rfl rfl (by decide) (by decide)
      (by decide)
  have hsince : (sinceReset falteringFiles falteringSetup freshLog falteringScript).length = 3 := by
    decide +kernel
  have htones : Played.tones (hostSetup falteringSetup)
      (history falteringFiles falteringSetup freshLog falteringScript) = 2 := by
    decide +kernel
  have hunknown : (((history falteringFiles falteringSetup freshLog falteringScript).flatMap
      Played.events).find? Event.unknown).map
        (fun e => (e.instruction.toNat, e.address.toNat)) = some (0xFFFF, 0x204) := by
    decide +kernel
  obtain ⟨e, hfound, he⟩ := Option.map_eq_some_iff.1 hunknown
  obtain ⟨hopcode, haddress⟩ := Prod.mk.inj he
  have hsummary := hclosed.summary
  have hbeeps := hclosed.beeps
  obtain ⟨hresult, hstopped⟩ := hclosed.of_unknown rfl e hfound
  rw [hsince, htones] at hsummary
  rw [htones] at hbeeps
  rw [hopcode, haddress] at hresult
  exact ⟨hsummary, hbeeps, hresult, hstopped⟩

end Session

end ChipEight
