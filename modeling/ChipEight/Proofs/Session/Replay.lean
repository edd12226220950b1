import ChipEight.Proofs.Machine.Influence
import ChipEight.Proofs.Session.Turn
import Mathlib.Data.List.GetD

/-!
A session is a fold over its machine. From a fresh machine with the program, the turns
from the last reset on that are not paused lead to the last screen and to the number of
instructions in the summary. Of everything else only the held keys and the pauses
matter, and that the screen was shown in between does not.
-/

namespace ChipEight

namespace Machine

variable {m k : Machine}

theorem markShown_playTurn (coupled : Bool) (held : Keypad) (batch : Nat)
    (h : m.markShown = k.markShown) :
    (m.playTurn coupled held batch).markShown = (k.playTurn coupled held batch).markShown := by
  have hkeyed : { m with keypad := held }.markShown = { k with keypad := held }.markShown :=
    congrArg (fun m => { m with keypad := held }) h
  have hran := (Channel.run_of_markShown_eq hkeyed batch).1
  cases coupled with
  | true => exact hran
  | false => exact congrArg (fun m => m.tick.1) hran

end Machine

namespace Script

variable (turns : List (List InputEvent))

def eventsUpTo (t : Nat) : List InputEvent := (turns.take (t + 1)).flatten

/-- Turn `t` is paused: the key for it has been pressed an odd number of times. -/
def Paused (t : Nat) : Prop := Odd ((eventsUpTo turns t).count (.keyDown "p"))

instance (t : Nat) : Decidable (Paused turns t) := inferInstanceAs (Decidable (Odd _))

def heldAt (t : Nat) : Keypad := ⟨Vector.ofFn fun k => keyHeld (eventsUpTo turns t) k⟩

def lastReset : Nat :=
  (((List.range turns.length).filter fun t =>
    .keyDown "BACKSPACE" ∈ turns.getD t []).getLast?).getD 0

/-- The held keys of the turns from the last reset on that are not paused. -/
def keypads : List Keypad :=
  ((List.range turns.length).filter fun t => lastReset turns ≤ t ∧ ¬ Paused turns t).map
    (heldAt turns)

/-- One of those turns: the machine takes the held keys and makes a batch of steps and,
unless its timers count these, a tick. The instructions are counted. -/
def replayTurn (setup : SessionSetup) (now : Machine × Nat) (held : Keypad) : Machine × Nat :=
  (now.1.playTurn setup.coupled held setup.batch, now.2 + setup.batch)

def replay (setup : SessionSetup) (m : Machine) : Machine × Nat :=
  (keypads turns).foldl (replayTurn setup) (m, 0)

def startOver (events : List InputEvent) (m : Machine) (now : Machine × Nat) : Machine × Nat :=
  if .keyDown "BACKSPACE" ∈ events then (m, 0) else now

variable {turns} {events : List InputEvent}

theorem eventsUpTo_concat {t : Nat} (ht : t < turns.length) :
    eventsUpTo (turns ++ [events]) t = eventsUpTo turns t := by
  unfold eventsUpTo
  rw [List.take_append_of_le_length ht]

theorem paused_concat_iff {t : Nat} (ht : t < turns.length) :
    Paused (turns ++ [events]) t ↔ Paused turns t := by
  rw [Paused, Paused, eventsUpTo_concat ht]

theorem heldAt_concat {t : Nat} (ht : t < turns.length) :
    heldAt (turns ++ [events]) t = heldAt turns t := by
  rw [heldAt, heldAt, eventsUpTo_concat ht]

theorem eventsUpTo_concat_length :
    eventsUpTo (turns ++ [events]) turns.length = (turns ++ [events]).flatten := by
  unfold eventsUpTo
  rw [List.take_of_length_le (by simp)]

theorem lastReset_le (turns : List (List InputEvent)) : lastReset turns ≤ turns.length := by
  unfold lastReset
  cases hlast : ((List.range turns.length).filter fun t =>
      decide (.keyDown "BACKSPACE" ∈ turns.getD t [])).getLast? with
  | none => exact Nat.zero_le _
  | some t =>
    have ht := List.mem_of_mem_filter (List.mem_of_getLast? hlast)
    exact Nat.le_of_lt (List.mem_range.1 ht)

theorem lastReset_concat : lastReset (turns ++ [events]) =
    if .keyDown "BACKSPACE" ∈ events then turns.length else lastReset turns := by
  unfold lastReset
  have hbefore : (List.range turns.length).filter (fun t =>
      decide (.keyDown "BACKSPACE" ∈ (turns ++ [events]).getD t [])) =
        (List.range turns.length).filter fun t => .keyDown "BACKSPACE" ∈ turns.getD t [] := by
    apply List.filter_congr
    intro t ht
    rw [List.getD_append _ _ _ _ (List.mem_range.1 ht)]
  rw [List.length_append, List.length_singleton, List.range_succ, List.filter_append, hbefore]
  by_cases hreset : .keyDown "BACKSPACE" ∈ events
  · simp [hreset]
  · simp [hreset]

theorem lastReset_concat_le : lastReset (turns ++ [events]) ≤ turns.length := by
  rw [lastReset_concat]
  split
  · exact le_rfl
  · exact lastReset_le turns

/-- One more turn forgets those before it if it starts the program over, and it counts
itself if it is not paused. -/
theorem keypads_concat : keypads (turns ++ [events]) =
    (if .keyDown "BACKSPACE" ∈ events then [] else keypads turns) ++
      if Paused (turns ++ [events]) turns.length then []
      else [heldAt (turns ++ [events]) turns.length] := by
  have hbefore : ((List.range turns.length).filter fun t =>
      lastReset (turns ++ [events]) ≤ t ∧ ¬ Paused (turns ++ [events]) t).map
        (heldAt (turns ++ [events])) =
      if .keyDown "BACKSPACE" ∈ events then [] else keypads turns := by
    rw [lastReset_concat]
    split
    case isTrue hreset =>
      rw [List.map_eq_nil_iff, List.filter_eq_nil_iff]
      intro t ht
      have hlt := List.mem_range.1 ht
      rw [decide_eq_true_eq]
      omega
    case isFalse hreset =>
      have hsame : (List.range turns.length).filter (fun t =>
          decide (lastReset turns ≤ t ∧ ¬ Paused (turns ++ [events]) t)) =
          (List.range turns.length).filter fun t => lastReset turns ≤ t ∧ ¬ Paused turns t := by
        apply List.filter_congr
        intro t ht
        simp only [paused_concat_iff (List.mem_range.1 ht)]
      rw [hsame, keypads]
      apply List.map_congr_left
      intro t ht
      exact heldAt_concat (List.mem_range.1 (List.mem_of_mem_filter ht))
  rw [← hbefore, keypads, List.length_append, List.length_singleton, List.range_succ,
    List.filter_append, List.map_append]
  by_cases hpaused : Paused (turns ++ [events]) turns.length
  · simp [hpaused]
  · simp [hpaused, lastReset_concat_le]

theorem replay_concat_of_paused (setup : SessionSetup) (m : Machine)
    (hpaused : Paused (turns ++ [events]) turns.length) :
    replay (turns ++ [events]) setup m = startOver events m (replay turns setup m) := by
  rw [replay, keypads_concat, if_pos hpaused, List.append_nil, startOver]
  split
  · rfl
  · rfl

theorem replay_concat (setup : SessionSetup) (m : Machine)
    (hpaused : ¬ Paused (turns ++ [events]) turns.length) :
    replay (turns ++ [events]) setup m =
      replayTurn setup (startOver events m (replay turns setup m))
        (heldAt (turns ++ [events]) turns.length) := by
  rw [replay, keypads_concat, if_neg hpaused, List.foldl_concat, startOver]
  split
  · rfl
  · rfl

end Script

namespace Session

variable {files : Files} {setup : SessionSetup} {log : Log} {palette : Palette}
  {script before : List (List InputEvent)} {events : List InputEvent} {key : RandomKey}
  {p : Program} {s s' : Session}

theorem Tracks.paused_iff (hs : Tracks (before ++ [events]).flatten s) :
    s.paused = true ↔ Script.Paused (before ++ [events]) before.length := by
  rw [hs.paused, Script.Paused, Script.eventsUpTo_concat_length]

theorem Tracks.held_eq (hs : Tracks (before ++ [events]).flatten s) :
    s.held = Script.heldAt (before ++ [events]) before.length := by
  have hkeys : s.held.keys = (Script.heldAt (before ++ [events]) before.length).keys := by
    apply Vector.ext
    intro k hk
    have hheld := hs.held ⟨k, hk⟩
    rw [← Script.eventsUpTo_concat_length] at hheld
    simpa [Script.heldAt, Keypad.isPressed] using hheld
  exact congrArg Keypad.mk hkeys

/-- The host of a session has come as far as a replay, apart from the mark that the
screen was shown. -/
structure Follows (setup : SessionSetup) (key : RandomKey) (now : Machine × Nat) (s : Session) :
    Prop where
  setup_eq : s.host.setup = hostSetup setup
  key_eq : s.host.key = key
  machine : s.host.machine.markShown = now.1.markShown
  steps : s.host.steps = now.2

namespace Follows

variable {now : Machine × Nat}

theorem handleAll (hp : files.program setup.rom = .ok p) (h : Follows setup key now s)
    (hnoted : s.handleAll files setup.rom events = (s', .ok ())) :
    Follows setup key
      (Script.startOver events ((Machine.fresh key setup.coupled).load p) now) s' := by
  obtain ⟨-, hsetup, hkey, hmachine, hsteps⟩ := handleAll_ok hp hnoted
  rw [h.setup_eq, h.key_eq] at hmachine
  refine ⟨hsetup.trans h.setup_eq, hkey.trans h.key_eq, ?_, ?_⟩
  · rw [hmachine, Script.startOver]
    split
    · rfl
    · exact h.machine
  · rw [hsteps, Script.startOver]
    split
    · rfl
    · exact h.steps

theorem play (h : Follows setup key now s) (hpaused : s.paused = false)
    (hplayed : s.play setup = (s', .ok ())) :
    Follows setup key (Script.replayTurn setup now s.held) s' := by
  obtain ⟨-, hmachine, hsteps, hsetup, hkey⟩ := play_ok hpaused hplayed
  refine ⟨hsetup.trans h.setup_eq, hkey.trans h.key_eq, ?_, ?_⟩
  · rw [hmachine, h.setup_eq]
    exact Machine.markShown_playTurn setup.coupled s.held setup.batch h.machine
  · rw [hsteps, h.steps]
    rfl

theorem paint (h : Follows setup key now s)
    (hpainted : s.paint setup.scale palette = (s', .ok ())) : Follows setup key now s' := by
  rcases paint_ok hpainted with ⟨rfl, -⟩ | ⟨-, image, -, rfl⟩
  · exact h
  · exact ⟨h.setup_eq, h.key_eq, h.machine, h.steps⟩

/-- One more turn takes the host as far as it takes the replay. -/
theorem turn (hp : files.program setup.rom = .ok p) (hs : Tracks before.flatten s)
    (h : Follows setup key
      (Script.replay before setup ((Machine.fresh key setup.coupled).load p)) s)
    (hturn : s.turn files setup palette events = (s', .ok ())) :
    Follows setup key (Script.replay (before ++ [events]) setup
      ((Machine.fresh key setup.coupled).load p)) s' := by
  obtain ⟨noted, played, hnoted, hplayed, hpainted⟩ := turn_ok hturn
  have htracks := hs.handleAll hnoted
  rw [← List.flatten_concat] at htracks
  have hstart := h.handleAll hp hnoted
  refine paint ?_ hpainted
  cases hpaused : noted.paused with
  | true =>
    rw [play_of_paused hpaused] at hplayed
    cases hplayed
    rw [Script.replay_concat_of_paused _ _ (htracks.paused_iff.1 hpaused)]
    exact hstart
  | false =>
    have hpause : ¬ Script.Paused (before ++ [events]) before.length := by
      rw [← htracks.paused_iff, hpaused]
      exact Bool.false_ne_true
    rw [Script.replay_concat _ _ hpause, ← htracks.held_eq]
    exact hstart.play hpaused hplayed

end Follows

theorem log_close (ended : Attempt Session Unit) :
    (close ended).log = ended.1.host.log.report (summary ended.1.host) := by
  simp only [close, Host.log, Host.tell, Journal.tell]

theorem playScript_ok {ready : Session} (hbegin : begin setup log = .ok (palette, ready))
    (h : playScript files setup palette script ready = (s, .ok ())) :
    ∃ key p, RandomKey.ofSeed setup.seed = .ok key ∧ files.program setup.rom = .ok p ∧
      Follows setup key (Script.replay (Script.played (script ++ [[.quit]])) setup
        ((Machine.fresh key setup.coupled).load p)) s := by
  unfold playScript at h
  obtain ⟨loaded, _, hload, hturns⟩ := Attempt.exists_of_andThen_eq_ok h
  obtain ⟨key, p, hopened⟩ := exists_opened hbegin hload
  refine ⟨key, p, hopened.seed, hopened.program, ?_⟩
  refine (hopened.turns_rule (P := fun turns s => Follows setup key
    (Script.replay turns setup ((Machine.fresh key setup.coupled).load p)) s) ?_ ?_ hturns).2
  · exact ⟨hopened.setup_eq, hopened.key_eq, congrArg Machine.markShown hopened.machine,
      hopened.steps⟩
  · intro before events s s' hs hbefore hturn
    exact hbefore.turn hopened.program hs hturn

/-- A session that ended without a fault has left the screen, and has counted in its
summary the instructions, of the replay of its turns. The turns of a script behind the
first that quits do not take place. -/
theorem run_eq_replay {screen : Screen}
    (hrun : (run files setup log script).result = .ok screen) :
    ∃ palette ready key p, begin setup log = .ok (palette, ready) ∧
      RandomKey.ofSeed setup.seed = .ok key ∧ files.program setup.rom = .ok p ∧
      screen = (Script.replay (Script.played (script ++ [[.quit]])) setup
        ((Machine.fresh key setup.coupled).load p)).1.screen ∧
      (run files setup log script).log =
        (playScript files setup palette script ready).1.host.log.report
          (.sessionEnd [("instructions", .integer
            (Script.replay (Script.played (script ++ [[.quit]])) setup
              ((Machine.fresh key setup.coupled).load p)).2)]) := by
  cases hbegin : begin setup log with
  | error refusal =>
    rw [run, hbegin] at hrun
    cases hrun
  | ok opening =>
    obtain ⟨palette, ready⟩ := opening
    cases hended : playScript files setup palette script ready with
    | mk ended result =>
      have hclosed : run files setup log script = close (ended, result) := by
        rw [run, hbegin, ← hended]
      rw [hclosed] at hrun ⊢
      cases result with
      | error fault => cases hrun
      | ok _ =>
        cases hrun
        obtain ⟨key, p, hseed, hprogram, hfollows⟩ := playScript_ok hbegin hended
        refine ⟨palette, ready, key, p, rfl, hseed, hprogram, ?_, ?_⟩
        · have hscreen := congrArg Machine.screen hfollows.machine
          exact hscreen
        · rw [log_close, summary, hfollows.steps, hended]

def keyDigit : Program := ⟨[0xF0, 0x0A, 0xF0, 0x29, 0xD1, 0x15, 0x12, 0x06], by decide⟩

def keyDigitFiles : Files := ⟨fun _ => .ok keyDigit.bytes⟩

def keyDigitSetup : SessionSetup := { rom := "digit.ch8", scale := 1, batch := 3 }

/-- The digit four is drawn; the session is paused and starts over, and while it is
paused another key is pressed. -/
def keyDigitScript : List (List InputEvent) :=
  [[.keyDown "q"], [.keyDown "p", .keyUp "q"], [.keyDown "BACKSPACE", .keyDown "w"],
    [.other], [.keyDown "p"]]

def keyDigitReplay : Machine × Nat :=
  Script.replay (Script.played (keyDigitScript ++ [[.quit]])) keyDigitSetup
    ((Machine.fresh ⟨0, 0⟩ true).load keyDigit)

/-- Two of the six turns are replayed. The first of them reads the key that was pressed
during the pause. -/
theorem run_eq_replay_keyDigit :
    (run keyDigitFiles keyDigitSetup (Log.create {} (Clock.ofList [])) keyDigitScript).result =
        .ok keyDigitReplay.1.screen ∧
      keyDigitReplay.1.reg 0 = 5 ∧ keyDigitReplay.2 = 6 := by
  refine ⟨?_, by decide +kernel, by decide +kernel⟩
  have hended : (run keyDigitFiles keyDigitSetup (Log.create {} (Clock.ofList []))
      keyDigitScript).result.isOk = true := by decide +kernel
  cases hrun : (run keyDigitFiles keyDigitSetup (Log.create {} (Clock.ofList []))
      keyDigitScript).result with
  | error fault =>
    rw [hrun] at hended
    cases hended
  | ok screen =>
    obtain ⟨palette, ready, key, p, -, hseed, hprogram, hscreen, -⟩ := run_eq_replay hrun
    cases hseed
    cases hprogram
    rw [hscreen]
    rfl

end Session

end ChipEight
