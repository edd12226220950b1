import ChipEight.Proofs.Host.Reporting
import ChipEight.Proofs.Session.Replay

/-!
What a session has counted when it ends, be it by a fault in the middle of a turn. The
turns that began are listed with what each of them executed, the last one with all that
came before its fault. The counter of steps and the reports to the journal follow from
that list, turn by turn.
-/

namespace ChipEight

namespace Host

variable (h : Host)

/-- A batch is made and reported up to the event that the host stops at. -/
theorem run_eq (n : Nat) : h.run n =
    ({ h with
        machine := (h.batch n).1
        steps := h.steps + (h.batch n).2.length
        journal := h.journal.record h.setup
          (((h.batch n).2.filter fun e => !h.setup.stops e).flatMap Event.reports) },
      match (h.batch n).2.find? h.setup.stops with
      | some e => .error (.unknownOpcode e.instruction.toNat e.address.toNat)
      | none => .ok (h.batch n).2) := by
  have hfst := h.journal.observeAll_fst h.setup (h.batch n).2
  have hsnd := h.journal.observeAll_snd h.setup (h.batch n).2
  rw [takeWhile_batch] at hfst
  unfold run
  apply Prod.ext
  · simp only [Attempt.mapState, Attempt.mapResult, hfst]
  · simp only [Attempt.mapState, Attempt.mapResult, hsnd]
    cases (h.batch n).2.find? h.setup.stops <;> rfl

theorem journal_tick : h.tick.1.journal = h.journal.record h.setup
    (if h.machine.tick.2 then [.tone h.machine.pc.toNat] else []) := by
  have hticked : h.tick.1.journal =
      if h.machine.tick.2 then h.journal.hear h.setup h.machine.pc else h.journal := rfl
  rw [hticked]
  cases h.machine.tick.2 with
  | true => rfl
  | false => exact (h.journal.record_nil h.setup).symm

end Host

/-- What a turn executed: the events of its batch, with the one it was stopped at, and
whether the tick behind the batch gave a tone. -/
structure Played where
  events : List Event
  ticked : Bool

namespace Played

variable (setup : HostSetup)

/-- The unknown opcodes that a log counts. A strict session ends at the first. -/
def unknowns (turns : List Played) : Nat :=
  if setup.strict then 0 else (turns.flatMap events).countP Event.unknown

def tones (turns : List Played) : Nat :=
  (turns.flatMap events).countP (fun e => e.tone && !setup.stops e) +
    turns.countP ticked

theorem unknowns_append (first second : List Played) :
    unknowns setup (first ++ second) = unknowns setup first + unknowns setup second := by
  unfold unknowns
  split
  · rfl
  · rw [List.flatMap_append, List.countP_append]

theorem tones_append (first second : List Played) :
    tones setup (first ++ second) = tones setup first + tones setup second := by
  simp only [tones, List.flatMap_append, List.countP_append]
  omega

end Played

/-- Reports that tell of turns: no summary is among them. -/
structure Tells (setup : HostSetup) (told : List Report) (turns : List Played) : Prop where
  unknowns : told.countP Report.isUnknownOpcode = Played.unknowns setup turns
  tones : told.countP Report.isTone = Played.tones setup turns
  noSummary : ∀ r ∈ told, r.isSummary = false

namespace Tells

variable {setup : HostSetup}

theorem append {first second : List Report} {turns more : List Played}
    (h : Tells setup first turns) (h' : Tells setup second more) :
    Tells setup (first ++ second) (turns ++ more) where
  unknowns := by rw [List.countP_append, Played.unknowns_append, h.unknowns, h'.unknowns]
  tones := by rw [List.countP_append, Played.tones_append, h.tones, h'.tones]
  noSummary := List.forall_mem_append.2 ⟨h.noSummary, h'.noSummary⟩

/-- What a batch reports tells of it. -/
theorem batch (events : List Event) :
    Tells setup ((events.filter fun e => !setup.stops e).flatMap Event.reports)
      [⟨events, false⟩] := by
  obtain ⟨hunknown, htone⟩ := Event.countP_flatMap_reports
    (events.filter fun e => !setup.stops e)
  constructor
  · rw [hunknown, List.countP_filter, Played.unknowns]
    simp only [List.flatMap_singleton, HostSetup.stops]
    cases setup.strict with
    | true => simp
    | false => simp
  · rw [htone, List.countP_filter, Played.tones]
    simp only [List.flatMap_singleton, List.countP_singleton, Bool.false_eq_true, if_false,
      Nat.add_zero]
  · intro r hr
    obtain ⟨e, -, hr⟩ := List.mem_flatMap.1 hr
    unfold Event.reports at hr
    rcases List.mem_append.1 hr with hr | hr
    · split at hr
      · rw [List.mem_singleton.1 hr]
        rfl
      · exact absurd hr List.not_mem_nil
    · split at hr
      · rw [List.mem_singleton.1 hr]
        rfl
      · exact absurd hr List.not_mem_nil

theorem tick (on : Bool) (address : Int) :
    Tells setup (if on then [.tone address] else []) [⟨[], on⟩] := by
  cases on with
  | true => exact ⟨by simp [Played.unknowns, Report.isUnknownOpcode],
      by simp [Played.tones, Report.isTone], by simp [Report.isSummary]⟩
  | false => exact ⟨by simp [Played.unknowns], by simp [Played.tones], by simp⟩

theorem batch_tick (events : List Event) (on : Bool) (address : Int) :
    Tells setup ((events.filter fun e => !setup.stops e).flatMap Event.reports ++
      if on then [.tone address] else []) [⟨events, on⟩] := by
  have htold : Tells setup _ ([⟨events, false⟩] ++ [⟨[], on⟩]) :=
    (batch events).append (tick on address)
  obtain ⟨hunknowns, htones, hnoSummary⟩ := htold
  refine ⟨hunknowns.trans ?_, htones.trans ?_, hnoSummary⟩
  · simp [Played.unknowns]
  · simp [Played.tones]

/-- Reports of something else than a turn. -/
theorem of_none {told : List Report}
    (h : ∀ r ∈ told, r.isUnknownOpcode = false ∧ r.isTone = false ∧ r.isSummary = false) :
    Tells setup told [] where
  unknowns := by
    have hnone : told.countP Report.isUnknownOpcode = 0 :=
      List.countP_eq_zero.2 fun r hr => by simp [(h r hr).1]
    rw [hnone]
    simp [Played.unknowns]
  tones := by
    have hnone : told.countP Report.isTone = 0 :=
      List.countP_eq_zero.2 fun r hr => by simp [(h r hr).2.1]
    rw [hnone]
    rfl
  noSummary := fun r hr => (h r hr).2.2

end Tells

namespace Session

variable {files : Files} {setup : SessionSetup} {palette : Palette} {p : Program}
  {start : Journal} {before : List (List InputEvent)} {taken : List Played}

def keyed (s : Session) : Host :=
  { s.host with machine := { s.host.machine with keypad := s.held } }

/-- What a session executes next, if it has taken note of the events of a turn. -/
def plays (setup : SessionSetup) (s : Session) : Played :=
  if s.paused then ⟨[], false⟩
  else
    match batchLength setup with
    | .ok count =>
      let ran := s.keyed.run count
      { events := (s.keyed.batch count).2
        ticked := ran.2.isOk && !ran.1.setup.coupled && ran.1.machine.tick.2 }
    | .error _ => ⟨[], false⟩

def course (files : Files) (setup : SessionSetup) (palette : Palette) :
    List (List InputEvent) → Session → List Played
  | [], _ => []
  | events :: rest, s =>
    (s.handleAll files setup.rom events).1.plays setup ::
      match s.turn files setup palette events with
      | (after, .ok _) => if after.running then course files setup palette rest after else []
      | (_, .error _) => []

/-- What a session has gained when it played: the steps of a turn and reports of them. -/
structure Gains (s : Session) (told : Played) (after : Session) : Prop where
  others : after = { s with host := after.host }
  setup_eq : after.host.setup = s.host.setup
  steps : after.host.steps = s.host.steps + told.events.length
  journal : ∃ reports, after.host.journal = s.host.journal.record s.host.setup reports ∧
    Tells s.host.setup reports [told]

theorem gains_nothing (s : Session) : Gains s ⟨[], false⟩ s where
  others := rfl
  setup_eq := rfl
  steps := rfl
  journal := ⟨[], (Journal.record_nil _ _).symm, Tells.tick false 0⟩

theorem playBatch_eq (s : Session) (count : Nat) : playBatch s.held count s.host =
    (s.keyed.run count).andThen fun ran _ =>
      .done (if ran.setup.coupled then ran else ran.tick.1) := by
  rw [playBatch, Host.setKeys_toList, Attempt.andThen_ok]
  rfl

/-- Whether or not its batch meets a fault, a session gains what it executes. -/
theorem gains_play (setup : SessionSetup) (s : Session) :
    Gains s (s.plays setup) (s.play setup).1 := by
  unfold play plays
  split
  · exact s.gains_nothing
  · cases batchLength setup with
    | error fault => exact s.gains_nothing
    | ok count =>
      have hsetup : s.keyed.setup = s.host.setup := rfl
      simp only [playBatch_eq, s.keyed.run_eq count]
      cases hfound : (s.keyed.batch count).2.find? s.keyed.setup.stops with
      | some e => exact ⟨rfl, rfl, rfl, _, rfl, Tells.batch _⟩
      | none =>
        simp only [Attempt.andThen_ok, hsetup]
        cases hcoupled : s.host.setup.coupled with
        | true => exact ⟨rfl, rfl, rfl, _, rfl, Tells.batch _⟩
        | false =>
          refine ⟨rfl, rfl, rfl, _, ?_,
            Tells.batch_tick _ _ ((s.keyed.batch count).1.pc.toNat : Int)⟩
          rw [Journal.record_append]
          exact Host.journal_tick _

/-- A batch with an event that the host stops at is a fault. -/
theorem exists_play_eq_error (s : Session) {e : Event}
    (hfound : (s.plays setup).events.find? s.host.setup.stops = some e) :
    ∃ host, s.play setup =
      ({ s with host := host },
        .error (.unknownOpcode e.instruction.toNat e.address.toNat)) := by
  unfold plays at hfound
  unfold play
  split at hfound
  · cases hfound
  · rename_i hpaused
    rw [if_neg hpaused]
    cases hcount : batchLength setup with
    | error fault =>
      rw [hcount] at hfound
      cases hfound
    | ok count =>
      rw [hcount] at hfound
      have hbatch : (s.keyed.batch count).2.find? s.keyed.setup.stops = some e := hfound
      simp only [playBatch_eq, s.keyed.run_eq count, hbatch]
      exact ⟨_, rfl⟩

/-- The events of a turn meet no fault once the program could be loaded. They count no
steps, unless one starts the program over, and tell of none. -/
theorem exists_handle_eq (hp : files.program setup.rom = .ok p) (s : Session) (e : InputEvent) :
    ∃ s', s.handle files setup.rom e = (s', .ok ()) ∧ s'.overlays = s.overlays ∧
      ∃ reports, s'.host.journal = s.host.journal.record s.host.setup reports ∧
        Tells s.host.setup reports [] := by
  have hnothing : ∃ reports, s.host.journal = s.host.journal.record s.host.setup reports ∧
      Tells s.host.setup reports [] :=
    ⟨[], (Journal.record_nil _ _).symm, Tells.of_none fun _ hr => absurd hr List.not_mem_nil⟩
  have hhold (name : String) (pressed : Bool) : ∃ s',
      (Attempt.done (s.hold name pressed) : Attempt Session Unit) = (s', .ok ()) ∧
        s'.overlays = s.overlays ∧
        ∃ reports, s'.host.journal = s.host.journal.record s.host.setup reports ∧
          Tells s.host.setup reports [] := by
    obtain ⟨held, heq, -⟩ := s.exists_hold_eq name pressed
    rw [heq]
    exact ⟨_, rfl, rfl, hnothing⟩
  unfold handle
  split
  case h_5 =>
    have hrestart : s.restart files setup.rom = ({ s with
        host := (s.host.reset.load setup.rom p).tell (.message ⟨"INFO", "Reset"⟩) }, .ok ()) := by
      unfold restart Host.loadFile
      rw [hp]
      rfl
    refine ⟨_, hrestart, rfl, [.loaded setup.rom p.size] ++ [.message ⟨"INFO", "Reset"⟩], ?_, ?_⟩
    · rw [Journal.record_append, ← Journal.tell_eq_record _ _ _ rfl,
        ← Journal.tell_eq_record _ _ _ rfl]
      rfl
    · apply Tells.of_none
      simp [Report.isUnknownOpcode, Report.isTone, Report.isSummary]
  case h_6 name _ _ _ _ => exact hhold name true
  case h_7 name => exact hhold name false
  all_goals exact ⟨_, rfl, rfl, hnothing⟩

theorem exists_handleAll_eq (hp : files.program setup.rom = .ok p) (s : Session)
    (events : List InputEvent) :
    ∃ noted, s.handleAll files setup.rom events = (noted, .ok ()) ∧
      noted.overlays = s.overlays ∧
      ∃ reports, noted.host.journal = s.host.journal.record s.host.setup reports ∧
        Tells s.host.setup reports [] := by
  induction events generalizing s with
  | nil => exact ⟨s, rfl, rfl, [], (Journal.record_nil _ _).symm,
      Tells.of_none fun _ hr => absurd hr List.not_mem_nil⟩
  | cons e rest ih =>
    obtain ⟨s', he, hoverlays, first, hjournal, hfirst⟩ := exists_handle_eq hp s e
    obtain ⟨noted, hrest, hoverlays', more, hjournal', hmore⟩ := ih s'
    have hsetup : s'.host.setup = s.host.setup := (host_handle_ok hp he).1
    rw [hsetup] at hjournal' hmore
    refine ⟨noted, ?_, hoverlays'.trans hoverlays, first ++ more, ?_, hfirst.append hmore⟩
    · rw [handleAll, Attempt.forEach, he, Attempt.andThen_ok]
      exact hrest
    · rw [hjournal', hjournal, Journal.record_append]

/-- A paint, be it refused or not, only takes the screen of the host. -/
theorem paint_keeps (s : Session) :
    (s.paint setup.scale palette).1.host.setup = s.host.setup ∧
      (s.paint setup.scale palette).1.host.steps = s.host.steps ∧
      (s.paint setup.scale palette).1.host.journal = s.host.journal := by
  unfold paint
  split
  · dsimp only
    split <;> exact ⟨rfl, rfl, rfl⟩
  · exact ⟨rfl, rfl, rfl⟩

/-- A turn is its events, its batch and its paint, the last two up to a fault. -/
theorem exists_turn_eq (palette : Palette) (hp : files.program setup.rom = .ok p) (s : Session)
    (events : List InputEvent) : ∃ noted, s.handleAll files setup.rom events = (noted, .ok ()) ∧
      s.turn files setup palette events =
        (noted.play setup).andThen fun played _ => played.paint setup.scale palette := by
  obtain ⟨noted, hnoted, -⟩ := exists_handleAll_eq hp s events
  refine ⟨noted, hnoted, ?_⟩
  rw [turn, hnoted, Attempt.andThen_ok]

/-- A turn gains what it executes. It counts steps anew if one of its events starts the
program over. -/
theorem host_turn (palette : Palette) (hp : files.program setup.rom = .ok p) (s : Session)
    (events : List InputEvent) :
    let told := (s.handleAll files setup.rom events).1.plays setup
    let after := (s.turn files setup palette events).1
    after.host.setup = s.host.setup ∧
      after.host.steps =
        (if .keyDown "BACKSPACE" ∈ events then 0 else s.host.steps) + told.events.length ∧
      ∃ reports, after.host.journal = s.host.journal.record s.host.setup reports ∧
        Tells s.host.setup reports [told] := by
  obtain ⟨noted, hnoted, hturn⟩ := exists_turn_eq palette hp s events
  obtain ⟨_, hnoted', -, first, htold, hfirst⟩ := exists_handleAll_eq hp s events
  obtain rfl := congrArg Prod.fst (hnoted.symm.trans hnoted')
  obtain ⟨-, hkept, -, -, hreset⟩ := handleAll_ok hp hnoted
  obtain ⟨-, hsetup, hsteps, more, hplayed, hmore⟩ := gains_play setup noted
  have hpainted : (s.turn files setup palette events).1.host.setup =
        (noted.play setup).1.host.setup ∧
      (s.turn files setup palette events).1.host.steps = (noted.play setup).1.host.steps ∧
      (s.turn files setup palette events).1.host.journal = (noted.play setup).1.host.journal := by
    rw [hturn]
    cases noted.play setup with
    | mk played result =>
      cases result with
      | error fault => exact ⟨rfl, rfl, rfl⟩
      | ok _ => exact played.paint_keeps
  obtain ⟨hsetup', hsteps', hjournal⟩ := hpainted
  dsimp only
  rw [hkept] at hsetup hplayed hmore
  rw [hnoted, hsetup', hsteps', hjournal, hsetup, hsteps, hreset, hplayed, htold]
  refine ⟨rfl, rfl, first ++ more, ?_, ?_⟩
  · rw [Journal.record_append]
  · have hturn := hfirst.append hmore
    exact hturn

/-- A session stands behind the turns `before`, in which it has executed `taken`: its
counter is that of the instructions since the last reset, and its journal was told of all. -/
structure Accounted (setup : SessionSetup) (start : Journal) (before : List (List InputEvent))
    (taken : List Played) (s : Session) : Prop where
  setup_eq : s.host.setup = hostSetup setup
  length_eq : taken.length = before.length
  steps : s.host.steps = ((taken.drop (Script.lastReset before)).flatMap Played.events).length
  journal : ∃ reports, s.host.journal = start.record (hostSetup setup) reports ∧
    Tells (hostSetup setup) reports taken

/-- One more turn is accounted for, also if it meets a fault. -/
theorem Accounted.turn (palette : Palette) (hp : files.program setup.rom = .ok p) {s : Session}
    (h : Accounted setup start before taken s) (events : List InputEvent) :
    Accounted setup start (before ++ [events])
      (taken ++ [(s.handleAll files setup.rom events).1.plays setup])
      (s.turn files setup palette events).1 := by
  obtain ⟨hsetup, hsteps, more, hjournal, hmore⟩ := host_turn palette hp s events
  obtain ⟨reports, hstart, hreports⟩ := h.journal
  rw [h.setup_eq] at hsetup hjournal hmore
  constructor
  · exact hsetup
  · rw [List.length_append, List.length_append, h.length_eq]
    rfl
  · rw [hsteps, h.steps, Script.lastReset_concat]
    split
    · rw [← h.length_eq, List.drop_left]
      simp
    · have hle : Script.lastReset before ≤ taken.length := by
        rw [h.length_eq]
        exact Script.lastReset_le before
      rw [List.drop_append_of_le_length hle, List.flatMap_append, List.length_append]
      simp
  · refine ⟨reports ++ more, ?_, hreports.append hmore⟩
    rw [hjournal, hstart, Journal.record_append]

/-- The turns of a script are accounted for as far as they took place. -/
theorem Accounted.turns (palette : Palette) (hp : files.program setup.rom = .ok p) {s : Session}
    (h : Accounted setup start before taken s) (rest : List (List InputEvent)) :
    Accounted setup start
      (before ++ rest.take (course files setup palette rest s).length)
      (taken ++ course files setup palette rest s)
      (Session.turns files setup palette rest s).1 := by
  induction rest generalizing before taken s with
  | nil => simpa [course, Session.turns, Attempt.done] using h
  | cons events rest ih =>
    have hturn := h.turn palette hp events
    rw [course, Session.turns]
    cases hended : s.turn files setup palette events with
    | mk after result =>
      rw [hended] at hturn
      cases result with
      | error fault => simpa using hturn
      | ok _ =>
        simp only [Attempt.andThen_ok]
        split
        case isTrue hon =>
          have hrest := ih hturn
          simpa using hrest
        case isFalse hoff => simpa [Attempt.done] using hturn

end Session

end ChipEight
