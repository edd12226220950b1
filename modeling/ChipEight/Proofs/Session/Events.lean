import ChipEight.Proofs.Host.Stepwise
import ChipEight.Session
import Mathlib.Algebra.Ring.Parity

/-!
What the turns of a session leave in its own variables. Which keys are held, whether
it is paused, whether the overlay is on and whether it goes on: all this follows
from the events so far, whatever else the session did.
-/

namespace ChipEight

def InputEvent.Quits (e : InputEvent) : Prop := e = .quit ∨ e = .keyDown "ESCAPE"

instance (e : InputEvent) : Decidable e.Quits := inferInstanceAs (Decidable (_ ∨ _))

namespace KeyMap

def hostKey (k : Fin 16) : String := ((table.find? fun row => row.2 == k).map (·.1)).getD ""

/-- Every key of the pad has one host key. -/
theorem padKey?_eq_some_iff (name : String) (k : Fin 16) :
    padKey? name = some k ↔ name = hostKey k := by
  constructor
  · intro h
    obtain ⟨before, after, htable, -⟩ := List.lookup_eq_some_iff.1 h
    have hrows : ∀ row ∈ table, row.1 = hostKey row.2 := by decide
    have hmem : (name, k) ∈ table := by
      rw [htable]
      exact List.mem_append_right _ List.mem_cons_self
    exact hrows (name, k) hmem
  · intro h
    have hkeys : ∀ k, padKey? (hostKey k) = some k := by decide
    rw [h]
    exact hkeys k

end KeyMap

namespace InputEvent

def holds (e : InputEvent) (k : Fin 16) (before : Bool) : Bool :=
  if e = .keyDown (KeyMap.hostKey k) then true
  else if e = .keyUp (KeyMap.hostKey k) then false
  else before

theorem holds_keyDown (name : String) (k : Fin 16) (before : Bool) :
    (keyDown name).holds k before = if name = KeyMap.hostKey k then true else before := by
  simp only [holds, keyDown.injEq, reduceCtorEq, if_false]

theorem holds_keyUp (name : String) (k : Fin 16) (before : Bool) :
    (keyUp name).holds k before = if name = KeyMap.hostKey k then false else before := by
  simp only [holds, keyUp.injEq, reduceCtorEq, if_false]

/-- A key that stands for no key of the pad holds none of them down. -/
theorem holds_keyDown_of_none {name : String} (h : KeyMap.padKey? name = none) (k : Fin 16)
    (before : Bool) : (keyDown name).holds k before = before := by
  have hne : name ≠ KeyMap.hostKey k := by
    intro heq
    rw [(KeyMap.padKey?_eq_some_iff name k).2 heq] at h
    cases h
  rw [holds_keyDown, if_neg hne]

end InputEvent

namespace Session

variable {files : Files} {rom : String} {s s' : Session}

theorem exists_hold_eq (s : Session) (name : String) (pressed : Bool) :
    ∃ held, s.hold name pressed = { s with held := held } ∧ ∀ k, held.isPressed k =
      if name = KeyMap.hostKey k then pressed else s.held.isPressed k := by
  unfold hold
  cases hpad : KeyMap.padKey? name with
  | none =>
    refine ⟨s.held, rfl, ?_⟩
    intro k
    have hne : name ≠ KeyMap.hostKey k := by
      intro heq
      rw [(KeyMap.padKey?_eq_some_iff name k).2 heq] at hpad
      cases hpad
    rw [if_neg hne]
  | some j =>
    refine ⟨s.held.put j pressed, rfl, ?_⟩
    intro k
    have hname : name = KeyMap.hostKey k ↔ k = j := by
      rw [← KeyMap.padKey?_eq_some_iff, hpad, Option.some.injEq, eq_comm]
    simp only [Keypad.isPressed_put, hname]

theorem loadFile_ok {h : Host} (hload : s.withHost (h.loadFile files rom) = (s', .ok ())) :
    ∃ p, files.program rom = .ok p ∧ s' = { s with host := h.load rom p } := by
  unfold Host.loadFile at hload
  cases hp : files.program rom with
  | error fault =>
    rw [hp] at hload
    cases hload
  | ok p =>
    rw [hp] at hload
    cases hload
    exact ⟨p, rfl, rfl⟩

theorem restart_ok (h : s.restart files rom = (s', .ok ())) :
    ∃ p, files.program rom = .ok p ∧
      s' = { s with host := (s.host.reset.load rom p).tell (.message ⟨"INFO", "Reset"⟩) } := by
  unfold restart at h
  obtain ⟨loaded, _, hload, htold⟩ := Attempt.exists_of_andThen_eq_ok h
  obtain ⟨p, hp, rfl⟩ := loadFile_ok hload
  cases htold
  exact ⟨p, hp, rfl⟩

/-- What an event does to a session: it turns the switches, holds or releases keys
and, if it starts the program over, replaces the host. -/
theorem handle_ok {e : InputEvent} (h : s.handle files rom e = (s', .ok ())) :
    s'.running = (s.running && !decide e.Quits) ∧
      s'.paused = (s.paused ^^ decide (e = .keyDown "p")) ∧
      s'.overlay = (s.overlay ^^ decide (e = .keyDown "F2")) ∧
      (∀ k, s'.held.isPressed k = e.holds k (s.held.isPressed k)) ∧
      s'.paints = s.paints ∧ (e ≠ .keyDown "BACKSPACE" → s'.host = s.host) := by
  have hescape : KeyMap.padKey? "ESCAPE" = none := rfl
  have hpause : KeyMap.padKey? "p" = none := rfl
  have hoverlay : KeyMap.padKey? "F2" = none := rfl
  have hreset : KeyMap.padKey? "BACKSPACE" = none := rfl
  unfold handle at h
  split at h
  case h_1 =>
    cases h
    simp [InputEvent.Quits, InputEvent.holds]
  case h_2 =>
    cases h
    simp [InputEvent.Quits, InputEvent.holds_keyDown_of_none hescape]
  case h_3 =>
    cases h
    simp [InputEvent.Quits, InputEvent.holds_keyDown_of_none hpause]
  case h_4 =>
    cases h
    simp [InputEvent.Quits, InputEvent.holds_keyDown_of_none hoverlay]
  case h_5 =>
    obtain ⟨p, -, rfl⟩ := restart_ok h
    simp [InputEvent.Quits, InputEvent.holds_keyDown_of_none hreset]
  case h_6 name hnotEscape hnotPause hnotOverlay _ =>
    obtain ⟨held, heq, hheld⟩ := s.exists_hold_eq name true
    rw [heq] at h
    cases h
    simp_all [InputEvent.Quits, InputEvent.holds_keyDown]
  case h_7 name =>
    obtain ⟨held, heq, hheld⟩ := s.exists_hold_eq name false
    rw [heq] at h
    cases h
    simp_all [InputEvent.Quits, InputEvent.holds_keyUp]
  case h_8 =>
    cases h
    simp [InputEvent.Quits, InputEvent.holds]

end Session

namespace Script

/-- Whether a key of the pad is held down after events: the last that concerned its
host key has pressed it. -/
def keyHeld (events : List InputEvent) (k : Fin 16) : Bool :=
  decide ((events.filter fun e => e = .keyDown (KeyMap.hostKey k) ∨
    e = .keyUp (KeyMap.hostKey k)).getLast? = some (.keyDown (KeyMap.hostKey k)))

theorem keyHeld_concat (events : List InputEvent) (e : InputEvent) (k : Fin 16) :
    keyHeld (events ++ [e]) k = e.holds k (keyHeld events k) := by
  unfold keyHeld InputEvent.holds
  rw [List.filter_append]
  by_cases hdown : e = .keyDown (KeyMap.hostKey k)
  · simp [hdown]
  · by_cases hup : e = .keyUp (KeyMap.hostKey k)
    · simp [hup]
    · simp [hdown, hup]

end Script

/-- The variables of a session are those that the events so far call for. -/
structure Session.Tracks (events : List InputEvent) (s : Session) : Prop where
  running : s.running = true ↔ ∀ e ∈ events, ¬ e.Quits
  paused : s.paused = true ↔ Odd (events.count (.keyDown "p"))
  overlay : s.overlay = true ↔ Odd (events.count (.keyDown "F2"))
  held : ∀ k, s.held.isPressed k = Script.keyHeld events k

namespace Session.Tracks

variable {files : Files} {rom : String} {s s' : Session} {before events : List InputEvent}

theorem start (host : Host) : Tracks [] (Session.start host) where
  running := by simp [Session.start]
  paused := by simp [Session.start]
  overlay := by simp [Session.start]
  held k := by simp [Session.start, Keypad.released, Keypad.isPressed, Script.keyHeld]

theorem handle {e : InputEvent} (hs : Tracks before s) (h : s.handle files rom e = (s', .ok ())) :
    Tracks (before ++ [e]) s' := by
  obtain ⟨hrunning, hpaused, hoverlay, hheld, -, -⟩ := handle_ok h
  -- a switch is on after an odd number of the events that turn it
  have hswitch (now : Bool) (key : InputEvent) (hnow : now = true ↔ Odd (before.count key)) :
      (now ^^ decide (e = key)) = true ↔ Odd ((before ++ [e]).count key) := by
    rw [List.count_append, List.count_singleton]
    by_cases he : e = key
    · simp [he, Nat.odd_add_one, ← hnow]
    · simp [he, hnow]
  constructor
  · rw [hrunning, Bool.and_eq_true, hs.running, List.forall_mem_append, List.forall_mem_singleton,
      Bool.not_eq_true', decide_eq_false_iff_not]
  · rw [hpaused]
    exact hswitch s.paused _ hs.paused
  · rw [hoverlay]
    exact hswitch s.overlay _ hs.overlay
  · intro k
    rw [hheld, hs.held, Script.keyHeld_concat]

theorem handleAll (hs : Tracks before s) (h : s.handleAll files rom events = (s', .ok ())) :
    Tracks (before ++ events) s' := by
  induction events generalizing s before with
  | nil =>
    cases h
    rw [List.append_nil]
    exact hs
  | cons e rest ih =>
    rw [Session.handleAll, Attempt.forEach] at h
    obtain ⟨after, _, he, hrest⟩ := Attempt.exists_of_andThen_eq_ok h
    rw [List.append_cons]
    exact ih (hs.handle he) hrest

end Session.Tracks

end ChipEight
