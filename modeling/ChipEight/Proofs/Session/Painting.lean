import ChipEight.Proofs.Machine.Footprint
import ChipEight.Proofs.Session.Turn

/-!
What the window of a session shows. At the end of each turn the image painted last is
that of the screen, and a turn paints only if the overlay is on or there is something
new to show: the first screen, a fresh machine or one that drew.
-/

namespace ChipEight

theorem Machine.screen_playTurn (m : Machine) (coupled : Bool) (held : Keypad) (batch : Nat) :
    (m.playTurn coupled held batch).screen = ({ m with keypad := held }.run batch).1.screen ∧
      (m.playTurn coupled held batch).dirty = ({ m with keypad := held }.run batch).1.dirty := by
  cases coupled with
  | true => exact ⟨rfl, rfl⟩
  | false => exact ⟨rfl, rfl⟩

namespace Session

/-- The session stands at the end of the turns `before`, and it goes on. -/
def Underway (files : Files) (setup : SessionSetup) (log : Log) (palette : Palette)
    (before : List (List InputEvent)) (s : Session) : Prop :=
  ∃ ready loaded, begin setup log = .ok (palette, ready) ∧
    ready.withHost (ready.host.loadFile files setup.rom) = (loaded, .ok ()) ∧
    turns files setup palette before loaded = (s, .ok ()) ∧ s.running = true

def batchEvents (setup : SessionSetup) (s : Session) : List Event :=
  ({ s.host.machine with keypad := s.held }.run setup.batch).2

/-- A turn has something new to show: it is the first, one of its events starts the
program over, or it is not paused and an instruction of its batch draws. -/
def Renews (files : Files) (setup : SessionSetup) (before : List (List InputEvent))
    (events : List InputEvent) (s : Session) : Prop :=
  before = [] ∨ .keyDown "BACKSPACE" ∈ events ∨
    ¬ Odd ((before ++ [events]).flatten.count (.keyDown "p")) ∧
      ∃ e ∈ (s.handleAll files setup.rom events).1.batchEvents setup, e.kind.Draws

/-- A turn has to paint: the overlay is on after its events, or it has something new to
show. -/
def PaintDue (files : Files) (setup : SessionSetup) (before : List (List InputEvent))
    (events : List InputEvent) (s : Session) : Prop :=
  Odd ((before ++ [events]).flatten.count (.keyDown "F2")) ∨ s.Renews files setup before events

instance (files : Files) (setup : SessionSetup) (before : List (List InputEvent))
    (events : List InputEvent) (s : Session) : Decidable (s.Renews files setup before events) :=
  inferInstanceAs (Decidable (_ ∨ _))

instance (files : Files) (setup : SessionSetup) (before : List (List InputEvent))
    (events : List InputEvent) (s : Session) : Decidable (s.PaintDue files setup before events) :=
  inferInstanceAs (Decidable (_ ∨ _))

/-- After its first turn a session shows its screen, which then does not count as
changed. -/
structure Shows (setup : SessionSetup) (palette : Palette) (before : List (List InputEvent))
    (s : Session) : Prop where
  dirty : s.host.machine.dirty = true ↔ before = []
  image : before ≠ [] → ∃ image,
    Image.render s.host.machine.screen setup.scale palette = .ok image ∧
    s.paints.back? = some image

variable {files : Files} {setup : SessionSetup} {log : Log} {palette : Palette} {p : Program}
  {before : List (List InputEvent)} {events : List InputEvent} {s s' noted played : Session}

theorem named_of_prepare (h : prepare setup = .ok palette) :
    Palette.named setup.scheme = .ok palette := by
  unfold prepare at h
  obtain ⟨_, -, h⟩ := Except.exists_of_bind_eq_ok h
  obtain ⟨colours, hnamed, h⟩ := Except.exists_of_bind_eq_ok h
  obtain ⟨_, -, h⟩ := Except.exists_of_bind_eq_ok h
  obtain ⟨_, -, h⟩ := Except.exists_of_bind_eq_ok h
  cases h
  exact hnamed

theorem screen_play (h : s.play setup = (played, .ok ())) :
    (played.host.machine.dirty = true ↔ s.host.machine.dirty = true ∨
      ¬ s.paused = true ∧ ∃ e ∈ s.batchEvents setup, e.kind.Draws) ∧
    (¬ (¬ s.paused = true ∧ ∃ e ∈ s.batchEvents setup, e.kind.Draws) →
      played.host.machine.screen = s.host.machine.screen) := by
  cases hpaused : s.paused with
  | true =>
    rw [play_of_paused hpaused] at h
    cases h
    simp
  | false =>
    obtain ⟨-, hmachine, -⟩ := play_ok hpaused h
    obtain ⟨hscreen, hdirty⟩ := s.host.machine.screen_playTurn s.host.setup.coupled s.held
      setup.batch
    rw [hmachine, hscreen, hdirty, Machine.dirty_run_iff]
    simp only [Bool.false_eq_true, not_false_eq_true, true_and]
    refine ⟨Iff.rfl, ?_⟩
    intro hdull
    refine (Machine.screen_run _ _ ?_).1
    intro e he hdraws
    exact hdull ⟨e, he, hdraws⟩

/-- When a turn comes to its paint, the screen counts as changed exactly if the turn has
something new to show, and else it is that of the turn before. -/
theorem screen_beforePaint (hp : files.program setup.rom = .ok p) (hs : Tracks before.flatten s)
    (hdirty : s.host.machine.dirty = true ↔ before = [])
    (hnoted : s.handleAll files setup.rom events = (noted, .ok ()))
    (hplayed : noted.play setup = (played, .ok ())) :
    (played.host.machine.dirty = true ↔ s.Renews files setup before events) ∧
      (¬ s.Renews files setup before events →
        played.host.machine.screen = s.host.machine.screen) := by
  obtain ⟨-, -, -, hmachine, -⟩ := handleAll_ok hp hnoted
  obtain ⟨hplay, hscreen⟩ := screen_play hplayed
  have hpaused := (hs.handleAll hnoted).paused
  rw [← List.flatten_concat] at hpaused
  have hfresh : noted.host.machine.dirty = true ↔
      before = [] ∨ .keyDown "BACKSPACE" ∈ events := by
    rw [hmachine]
    split
    case isTrue hreset => simp [hreset, Machine.fresh, Machine.load]
    case isFalse hreset => simp [hreset, hdirty]
  unfold Renews
  rw [hnoted, ← hpaused]
  constructor
  · rw [hplay, hfresh, or_assoc]
  · intro hdull
    rw [not_or, not_or] at hdull
    obtain ⟨-, hreset, hdraws⟩ := hdull
    rw [hscreen hdraws, hmachine, if_neg hreset]

/-- What a turn paints, if it paints, is the screen that it leaves. -/
theorem image_turn (hp : files.program setup.rom = .ok p) (hs : Tracks before.flatten s)
    (hshows : s.Shows setup palette before)
    (h : s.turn files setup palette events = (s', .ok ())) :
    s'.host.machine.dirty = false ∧ ∃ image,
      Image.render s'.host.machine.screen setup.scale palette = .ok image ∧
      s'.paints.back? = some image ∧
      (s.PaintDue files setup before events → s'.paints = s.paints.push image) ∧
      (¬ s.PaintDue files setup before events → s'.paints = s.paints) := by
  obtain ⟨noted, played, hnoted, hplayed, hpainted⟩ := turn_ok h
  obtain ⟨hdirty, hscreen⟩ := screen_beforePaint hp hs hshows.dirty hnoted hplayed
  have hpaints : played.paints = s.paints ∧ played.overlay = noted.overlay := by
    obtain ⟨hkept, -⟩ := handleAll_ok hp hnoted
    rw [play_keeps hplayed]
    exact ⟨hkept, rfl⟩
  have hoverlay := (hs.handleAll hnoted).overlay
  rw [← List.flatten_concat, ← hpaints.2] at hoverlay
  unfold PaintDue
  rw [← hoverlay, ← hdirty]
  rcases paint_ok hpainted with ⟨rfl, hclean, hoff⟩ | ⟨hdue, image, himage, rfl⟩
  · have hnothing : ¬ s.Renews files setup before events := by
      rw [← hdirty, hclean]
      exact Bool.false_ne_true
    obtain ⟨image, himage, hlast⟩ := hshows.image fun hfirst => hnothing (Or.inl hfirst)
    refine ⟨hclean, image, ?_, ?_, ?_, fun _ => hpaints.1⟩
    · rw [hscreen hnothing]
      exact himage
    · rw [hpaints.1]
      exact hlast
    · intro hdue
      simp [hclean, hoff] at hdue
  · refine ⟨rfl, image, himage, Array.back?_push, ?_, ?_⟩
    · intro _
      rw [← hpaints.1]
      rfl
    · intro hnot
      exact absurd hdue.symm hnot

/-- After each turn of a session the image painted last is that of the screen, which
does not count as changed. The turn has painted it, once, if the overlay is on or the
turn had something new to show, and else it has painted nothing. -/
theorem window_shows_screen (hbefore : Underway files setup log palette before s)
    (hturn : s.turn files setup palette events = (s', .ok ())) :
    Palette.named setup.scheme = .ok palette ∧ s'.host.machine.dirty = false ∧ ∃ image,
      Image.render s'.host.machine.screen setup.scale palette = .ok image ∧
      s'.paints.back? = some image ∧
      (s.PaintDue files setup before events → s'.paints = s.paints.push image) ∧
      (¬ s.PaintDue files setup before events → s'.paints = s.paints) := by
  obtain ⟨ready, loaded, hbegin, hload, hturns, hrunning⟩ := hbefore
  obtain ⟨key, p, hopened⟩ := exists_opened hbegin hload
  have hstart : loaded.Shows setup palette [] := by
    refine ⟨?_, fun hne => absurd rfl hne⟩
    rw [hopened.machine]
    exact iff_of_true rfl rfl
  have hkept : ∀ before events s s', Tracks before.flatten s → s.Shows setup palette before →
      s.turn files setup palette events = (s', .ok ()) →
      s'.Shows setup palette (before ++ [events]) := by
    intro before events s s' hs hshows h
    obtain ⟨hclean, image, himage, hlast, -⟩ := image_turn hopened.program hs hshows h
    exact ⟨by simp [hclean], fun _ => ⟨image, himage, hlast⟩⟩
  obtain ⟨htracks, hshows⟩ := hopened.turns_rule hstart hkept hturns
  -- the session goes on, so that all of its turns took place
  have hall := Script.played_eq_self (htracks.running.1 hrunning)
  rw [hall] at htracks hshows
  refine ⟨?_, image_turn hopened.program htracks hshows hturn⟩
  obtain ⟨host, opened, hprepare, -⟩ := begin_ok hbegin
  exact named_of_prepare hprepare

def clearing : Program := ⟨[0x00, 0xE0, 0x12, 0x02], by decide⟩

def clearingFiles : Files := ⟨fun _ => .ok clearing.bytes⟩

def clearingSetup : SessionSetup := { rom := "clear.ch8", scale := 1, batch := 1 }

def clearingReady : Session :=
  (start (Host.unasked (hostSetup clearingSetup) ⟨0, 0⟩ {})).inform
    "Controls: ESC=Quit, P=Pause, BACKSPACE=Reset, F2=Debug"

def clearingLoaded : Session :=
  { clearingReady with host := clearingReady.host.load "clear.ch8" clearing }

def clearingShown : Session :=
  (turns clearingFiles clearingSetup Palette.classic [[.other]] clearingLoaded).1

/-- The next turn only jumps and paints nothing. If it is paused and starts the program
over, it paints. -/
theorem window_shows_clearing :
    (∃ s', clearingShown.turn clearingFiles clearingSetup Palette.classic [.keyDown "1"] =
        (s', .ok ()) ∧ s'.paints = clearingShown.paints) ∧
      ∃ s' image, clearingShown.turn clearingFiles clearingSetup Palette.classic
        [.keyDown "p", .keyDown "BACKSPACE"] = (s', .ok ()) ∧
        s'.paints = clearingShown.paints.push image := by
  have hshown : turns clearingFiles clearingSetup Palette.classic [[.other]] clearingLoaded =
      (clearingShown, .ok ()) := Attempt.eq_of_snd_eq_ok (by decide +kernel)
  have hunderway : Underway clearingFiles clearingSetup (Log.create {} (Clock.ofList []))
      Palette.classic [[.other]] clearingShown :=
    ⟨clearingReady, clearingLoaded, rfl, rfl, hshown, by decide +kernel⟩
  constructor
  · have hturn : clearingShown.turn clearingFiles clearingSetup Palette.classic [.keyDown "1"] =
        (_, .ok ()) := Attempt.eq_of_snd_eq_ok (by decide +kernel)
    obtain ⟨-, -, image, -, -, -, hkept⟩ := window_shows_screen hunderway hturn
    exact ⟨_, hturn, hkept (by decide +kernel)⟩
  · have hturn : clearingShown.turn clearingFiles clearingSetup Palette.classic
        [.keyDown "p", .keyDown "BACKSPACE"] = (_, .ok ()) :=
      Attempt.eq_of_snd_eq_ok (by decide +kernel)
    obtain ⟨-, -, image, -, -, hpainted, -⟩ := window_shows_screen hunderway hturn
    exact ⟨_, image, hturn, hpainted (by decide +kernel)⟩

end Session

end ChipEight
