import ChipEight.Proofs.Host.Serving
import ChipEight.Proofs.Session.Events

/-!
The parts of a turn that was played to its end: its events, its batch and its paint.
Of the host only the reset and the batch change more than the flag of the screen, and
a batch that met no fault is a run of the machine, under a strict setup as well.
-/

namespace ChipEight

theorem Except.exists_of_bind_eq_ok {ε α β : Type} {x : Except ε α} {next : α → Except ε β} {b : β}
    (h : (x >>= next) = .ok b) : ∃ a, x = .ok a ∧ next a = .ok b := by
  cases x with
  | error fault => cases h
  | ok a => exact ⟨a, rfl, h⟩

theorem Keypad.ofFlags_toList (p : Keypad) : Keypad.ofFlags p.keys.toList = .ok p := by
  unfold ofFlags
  rw [dif_pos p.keys.length_toList]
  rfl

namespace Machine

/-- The machine after a turn that is not paused: it takes the held keys, makes a
batch of steps and, if the timers do not count these, one tick. -/
def playTurn (m : Machine) (coupled : Bool) (held : Keypad) (batch : Nat) : Machine :=
  let ran := ({ m with keypad := held }.run batch).1
  if coupled then ran else ran.tick.1

end Machine

namespace Journal

theorem observeAll_ok {setup : HostSetup} {j j' : Journal} {events : List Event}
    (h : j.observeAll setup events = (j', .ok ())) :
    ∀ e ∈ events, (e.unknown && setup.strict) = false := by
  induction events generalizing j with
  | nil => exact fun e he => absurd he List.not_mem_nil
  | cons e rest ih =>
    rw [observeAll, Attempt.forEach] at h
    obtain ⟨told, _, he, hrest⟩ := Attempt.exists_of_andThen_eq_ok h
    refine List.forall_mem_cons.2 ⟨?_, ih hrest⟩
    cases hstop : e.unknown && setup.strict with
    | false => rfl
    | true =>
      simp only [observe, hstop, if_true] at he
      cases he

end Journal

namespace Host

variable {h h' : Host}

theorem batch_eq_run (n : Nat) (hgo : ∀ e ∈ (h.batch n).2, (e.unknown && h.setup.strict) = false) :
    h.batch n = h.machine.run n := by
  induction n generalizing h with
  | zero => exact h.batch_zero
  | succ n ih =>
    cases hstop : h.machine.step.2.unknown && h.setup.strict with
    | true =>
      rw [h.batch_succ_of_stop n hstop] at hgo
      have hfirst := hgo h.machine.step.2 (List.mem_singleton_self _)
      rw [hstop] at hfirst
      cases hfirst
    | false =>
      rw [h.batch_succ n hstop, List.forall_mem_cons] at hgo
      rw [h.batch_succ n hstop, ih hgo.2]
      rfl

theorem setKeys_toList (h : Host) (held : Keypad) : h.setKeys held.keys.toList =
    ({ h with machine := { h.machine with keypad := held } }, .ok ()) := by
  unfold setKeys Machine.setKeys
  rw [held.ofFlags_toList]
  rfl

theorem run_ok {n : Nat} {events : List Event} (hrun : h.run n = (h', .ok events)) :
    h'.machine = (h.machine.run n).1 ∧ h'.steps = h.steps + n ∧ h'.setup = h.setup ∧
      h'.key = h.key := by
  unfold run at hrun
  dsimp only at hrun
  cases hobserved : h.journal.observeAll h.setup (h.batch n).2 with
  | mk j result =>
    rw [hobserved] at hrun
    cases result with
    | error fault => cases hrun
    | ok _ =>
      have hbatch := batch_eq_run n (Journal.observeAll_ok hobserved)
      rw [hbatch] at hrun
      cases hrun
      refine ⟨rfl, ?_, rfl, rfl⟩
      rw [Machine.length_run]
      rfl

end Host

namespace Session

variable {s s' : Session} {files : Files} {rom : String} {p : Program}

theorem host_handle_ok (hp : files.program rom = .ok p) {e : InputEvent}
    (h : s.handle files rom e = (s', .ok ())) :
    s'.host.setup = s.host.setup ∧ s'.host.key = s.host.key ∧
      s'.host.machine = (if e = .keyDown "BACKSPACE" then
        (Machine.fresh s.host.key s.host.setup.coupled).load p else s.host.machine) ∧
      s'.host.steps = if e = .keyDown "BACKSPACE" then 0 else s.host.steps := by
  by_cases hreset : e = .keyDown "BACKSPACE"
  · subst hreset
    obtain ⟨q, hq, rfl⟩ := restart_ok h
    rw [hp] at hq
    cases hq
    exact ⟨rfl, rfl, rfl, rfl⟩
  · obtain ⟨-, -, -, -, -, hhost⟩ := handle_ok h
    rw [hhost hreset, if_neg hreset, if_neg hreset]
    exact ⟨rfl, rfl, rfl, rfl⟩

/-- After the events of a turn the machine is fresh if one of them asked for that,
and else it is as it was. -/
theorem handleAll_ok (hp : files.program rom = .ok p) {events : List InputEvent}
    (h : s.handleAll files rom events = (s', .ok ())) :
    s'.paints = s.paints ∧ s'.host.setup = s.host.setup ∧ s'.host.key = s.host.key ∧
      s'.host.machine = (if .keyDown "BACKSPACE" ∈ events then
        (Machine.fresh s.host.key s.host.setup.coupled).load p else s.host.machine) ∧
      s'.host.steps = if .keyDown "BACKSPACE" ∈ events then 0 else s.host.steps := by
  induction events generalizing s with
  | nil =>
    cases h
    simp
  | cons e rest ih =>
    rw [handleAll, Attempt.forEach] at h
    obtain ⟨after, _, he, hrest⟩ := Attempt.exists_of_andThen_eq_ok h
    obtain ⟨-, -, -, -, hpaints, -⟩ := handle_ok he
    obtain ⟨hsetup, hkey, hmachine, hsteps⟩ := host_handle_ok hp he
    obtain ⟨hpaints', hsetup', hkey', hmachine', hsteps'⟩ := ih hrest
    refine ⟨hpaints'.trans hpaints, hsetup'.trans hsetup, hkey'.trans hkey, ?_, ?_⟩
    · rw [hmachine', hkey, hsetup, hmachine]
      by_cases hlater : .keyDown "BACKSPACE" ∈ rest
      · simp [hlater]
      · simp [hlater, eq_comm]
    · rw [hsteps', hsteps]
      by_cases hlater : .keyDown "BACKSPACE" ∈ rest
      · simp [hlater]
      · simp [hlater, eq_comm]

theorem playBatch_ok {held : Keypad} {batch : Nat} {h h' : Host}
    (hplay : playBatch held batch h = (h', .ok ())) :
    h'.machine = h.machine.playTurn h.setup.coupled held batch ∧ h'.steps = h.steps + batch ∧
      h'.setup = h.setup ∧ h'.key = h.key := by
  unfold playBatch at hplay
  rw [Host.setKeys_toList, Attempt.andThen_ok] at hplay
  obtain ⟨ran, events, hrun, htick⟩ := Attempt.exists_of_andThen_eq_ok hplay
  obtain ⟨hmachine, hsteps, hsetup, hkey⟩ := Host.run_ok hrun
  have hcoupled : ran.setup.coupled = h.setup.coupled := by rw [hsetup]
  rw [hcoupled] at htick
  unfold Machine.playTurn
  cases hc : h.setup.coupled with
  | true =>
    rw [hc, if_pos rfl] at htick
    cases htick
    exact ⟨hmachine, hsteps, hsetup, hkey⟩
  | false =>
    rw [hc, if_neg Bool.false_ne_true] at htick
    cases htick
    exact ⟨congrArg (fun m => m.tick.1) hmachine, hsteps, hsetup, hkey⟩

theorem play_of_paused {setup : SessionSetup} (hpaused : s.paused = true) :
    s.play setup = (s, .ok ()) := by
  unfold play
  rw [if_pos hpaused]
  rfl

theorem batchLength_ok {setup : SessionSetup} {count : Nat} (h : batchLength setup = .ok count) :
    count = setup.batch := by
  unfold batchLength at h
  obtain ⟨_, -, h⟩ := Except.exists_of_bind_eq_ok h
  obtain ⟨_, -, h⟩ := Except.exists_of_bind_eq_ok h
  cases h
  rfl

theorem play_ok {setup : SessionSetup} (hpaused : s.paused = false)
    (h : s.play setup = (s', .ok ())) :
    s' = { s with host := s'.host } ∧
      s'.host.machine = s.host.machine.playTurn s.host.setup.coupled s.held setup.batch ∧
      s'.host.steps = s.host.steps + setup.batch ∧ s'.host.setup = s.host.setup ∧
      s'.host.key = s.host.key := by
  unfold play at h
  rw [hpaused, if_neg Bool.false_ne_true] at h
  cases hcount : batchLength setup with
  | error fault =>
    rw [hcount] at h
    cases h
  | ok count =>
    have hbatch := batchLength_ok hcount
    rw [hcount] at h
    cases hplayed : playBatch s.held count s.host with
    | mk host result =>
      simp only [hplayed] at h
      cases result with
      | error fault => cases h
      | ok _ =>
        cases h
        rw [← hbatch]
        exact ⟨rfl, playBatch_ok hplayed⟩

theorem play_keeps {setup : SessionSetup} (h : s.play setup = (s', .ok ())) :
    s' = { s with host := s'.host } := by
  by_cases hpaused : s.paused = true
  · rw [play_of_paused hpaused] at h
    cases h
    rfl
  · exact (play_ok (Bool.eq_false_iff.2 hpaused) h).1

theorem paint_ok {scale : Int} {palette : Palette} (h : s.paint scale palette = (s', .ok ())) :
    (s' = s ∧ s.host.machine.dirty = false ∧ s.overlay = false) ∨
      ((s.host.machine.dirty = true ∨ s.overlay = true) ∧ ∃ image,
        Image.render s.host.machine.screen scale palette = .ok image ∧
        s' = { s with host := s.host.consume.1 }.addPaint image) := by
  unfold paint at h
  split at h
  case isTrue hpaint =>
    refine Or.inr ⟨Bool.or_eq_true_iff.1 hpaint, ?_⟩
    cases hrender : Image.render s.host.machine.screen scale palette with
    | error fault =>
      simp only [Host.consume, hrender] at h
      cases h
    | ok image =>
      simp only [Host.consume, hrender] at h
      cases h
      exact ⟨image, rfl, rfl⟩
  case isFalse hpaint =>
    cases h
    rw [Bool.or_eq_true, not_or, Bool.not_eq_true, Bool.not_eq_true] at hpaint
    exact Or.inl ⟨rfl, hpaint⟩

theorem turn_ok {setup : SessionSetup} {palette : Palette} {events : List InputEvent}
    (h : s.turn files setup palette events = (s', .ok ())) :
    ∃ noted played, s.handleAll files setup.rom events = (noted, .ok ()) ∧
      noted.play setup = (played, .ok ()) ∧
      played.paint setup.scale palette = (s', .ok ()) := by
  unfold turn at h
  obtain ⟨noted, _, hnoted, h⟩ := Attempt.exists_of_andThen_eq_ok h
  obtain ⟨played, _, hplayed, h⟩ := Attempt.exists_of_andThen_eq_ok h
  exact ⟨noted, played, hnoted, hplayed, h⟩

/-- Beyond its events a turn leaves the variables of a session alone. -/
theorem Tracks.turn {setup : SessionSetup} {palette : Palette} {before events : List InputEvent}
    (hs : Tracks before s) (h : s.turn files setup palette events = (s', .ok ())) :
    Tracks (before ++ events) s' := by
  obtain ⟨noted, played, hnoted, hplayed, hpainted⟩ := turn_ok h
  have htracks : Tracks (before ++ events) played := by
    have hevents := hs.handleAll hnoted
    rw [play_keeps hplayed]
    exact ⟨hevents.running, hevents.paused, hevents.overlay, hevents.held⟩
  rcases paint_ok hpainted with ⟨rfl, -⟩ | ⟨-, image, -, rfl⟩
  · exact htracks
  · exact ⟨htracks.running, htracks.paused, htracks.overlay, htracks.held⟩

end Session

namespace Script

/-- The turns of a script that take place: those up to the first that quits. -/
def played (turns : List (List InputEvent)) : List (List InputEvent) :=
  turns.take (turns.findIdx (fun events => decide (∃ e ∈ events, e.Quits)) + 1)

theorem played_cons (events : List InputEvent) (rest : List (List InputEvent)) :
    played (events :: rest) = events :: if ∃ e ∈ events, e.Quits then [] else played rest := by
  unfold played
  rw [List.findIdx_cons]
  by_cases hquits : ∃ e ∈ events, e.Quits
  · simp [hquits]
  · simp [hquits]

/-- If none of the turns that take place quits, they are all there are. -/
theorem played_eq_self {turns : List (List InputEvent)}
    (h : ∀ e ∈ (played turns).flatten, ¬ e.Quits) : played turns = turns := by
  induction turns with
  | nil => rfl
  | cons events rest ih =>
    rw [played_cons, List.flatten_cons, List.forall_mem_append] at h
    obtain ⟨hevents, hrest⟩ := h
    have hgo : ¬ ∃ e ∈ events, e.Quits := by
      rintro ⟨e, he, hquits⟩
      exact hevents e he hquits
    rw [if_neg hgo] at hrest
    rw [played_cons, if_neg hgo, ih hrest]

end Script

namespace Session

/-- What each turn keeps holds after all that take place. -/
theorem turns_rule {files : Files} {setup : SessionSetup} {palette : Palette}
    {P : List (List InputEvent) → Session → Prop}
    (hturn : ∀ before events s s', Tracks before.flatten s → P before s →
      s.turn files setup palette events = (s', .ok ()) → P (before ++ [events]) s')
    {before rest : List (List InputEvent)} {s s' : Session} (hs : Tracks before.flatten s)
    (hrunning : s.running = true) (hbefore : P before s)
    (h : turns files setup palette rest s = (s', .ok ())) :
    Tracks (before ++ Script.played rest).flatten s' ∧ P (before ++ Script.played rest) s' := by
  induction rest generalizing before s with
  | nil =>
    cases h
    rw [show Script.played [] = [] from rfl, List.append_nil]
    exact ⟨hs, hbefore⟩
  | cons events rest ih =>
    unfold turns at h
    obtain ⟨after, _, hafter, h⟩ := Attempt.exists_of_andThen_eq_ok h
    have htracks : Tracks (before ++ [events]).flatten after := by
      rw [List.flatten_concat]
      exact hs.turn hafter
    have hP := hturn before events s after hs hbefore hafter
    -- the session goes on exactly if none of the new events quits
    have hgo : after.running = true ↔ ¬ ∃ e ∈ events, e.Quits := by
      rw [htracks.running, List.flatten_concat, List.forall_mem_append,
        and_iff_right (hs.running.1 hrunning)]
      simp only [not_exists, not_and]
    rw [Script.played_cons, List.append_cons]
    split at h
    case isTrue hon =>
      rw [if_neg (hgo.1 hon)]
      exact ih htracks hon hP h
    case isFalse hoff =>
      cases h
      have hquits : ∃ e ∈ events, e.Quits := by
        by_contra hnone
        exact hoff (hgo.2 hnone)
      rw [if_pos hquits, List.append_nil]
      exact ⟨htracks, hP⟩

/-- A session whose program was loaded stands before its first turn: nothing has
happened, and its machine is fresh but for the program. -/
structure Opened (files : Files) (setup : SessionSetup) (key : RandomKey) (p : Program)
    (s : Session) : Prop where
  seed : RandomKey.ofSeed setup.seed = .ok key
  program : files.program setup.rom = .ok p
  tracks : Tracks [] s
  paints : s.paints = #[]
  setup_eq : s.host.setup = hostSetup setup
  key_eq : s.host.key = key
  machine : s.host.machine = (Machine.fresh key setup.coupled).load p
  steps : s.host.steps = 0

theorem begin_ok {setup : SessionSetup} {log : Log} {palette : Palette} {ready : Session}
    (h : begin setup log = .ok (palette, ready)) :
    ∃ host opened, prepare setup = .ok palette ∧ Host.create (hostSetup setup) opened = .ok host ∧
      ready = (start host).inform "Controls: ESC=Quit, P=Pause, BACKSPACE=Reset, F2=Debug" := by
  unfold begin at h
  cases hprepare : prepare setup with
  | error fault =>
    rw [hprepare] at h
    cases h
  | ok colours =>
    rw [hprepare] at h
    dsimp only at h
    cases hcreate : createHost setup (openLog setup log) with
    | error fault =>
      rw [hcreate] at h
      cases h
    | ok host =>
      rw [hcreate] at h
      cases h
      obtain ⟨_, -, hhost⟩ := Except.exists_of_bind_eq_ok hcreate
      exact ⟨host, openLog setup log, rfl, hhost, rfl⟩

theorem exists_opened {files : Files} {setup : SessionSetup} {log : Log} {palette : Palette}
    {ready loaded : Session} (hbegin : begin setup log = .ok (palette, ready))
    (hload : ready.withHost (ready.host.loadFile files setup.rom) = (loaded, .ok ())) :
    ∃ key p, Opened files setup key p loaded := by
  obtain ⟨host, opened, -, hcreate, rfl⟩ := begin_ok hbegin
  obtain ⟨p, hp, rfl⟩ := loadFile_ok hload
  have htracks := Tracks.start host
  obtain ⟨key, hkey, rfl⟩ := Host.create_ok hcreate
  exact ⟨key, p, hkey, hp, ⟨htracks.running, htracks.paused, htracks.overlay, htracks.held⟩,
    rfl, rfl, rfl, rfl, rfl⟩

/-- What holds before the first turn and what each turn keeps holds after all that take
place. -/
theorem Opened.turns_rule {files : Files} {setup : SessionSetup} {palette : Palette}
    {key : RandomKey} {p : Program} {P : List (List InputEvent) → Session → Prop}
    {loaded s : Session} {script : List (List InputEvent)}
    (hopened : Opened files setup key p loaded) (hstart : P [] loaded)
    (hturn : ∀ before events s s', Tracks before.flatten s → P before s →
      s.turn files setup palette events = (s', .ok ()) → P (before ++ [events]) s')
    (h : turns files setup palette script loaded = (s, .ok ())) :
    Tracks (Script.played script).flatten s ∧ P (Script.played script) s := by
  have htracks : Tracks ([] : List (List InputEvent)).flatten loaded := hopened.tracks
  have hrunning : loaded.running = true :=
    hopened.tracks.running.2 fun e he => absurd he List.not_mem_nil
  exact Session.turns_rule hturn htracks hrunning hstart h

end Session

end ChipEight
