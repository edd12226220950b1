import ChipEight.Proofs.Machine.Frame

/-!
What the parts of a machine have influence on. Keys, timers, random key, screen, its
flag and stack are channels that few instructions read. Two machines that differ in
one channel alone run alike as long as nothing reads it: they stay equal in all else,
and a host sees the same events, but for the tones if the timers differ.
-/

namespace ChipEight

/-- A part of a machine that only some instructions look at. The timers come with
the choice of what they count. -/
inductive Channel where
  | keypad | timers | random | screen | dirty | stack
  deriving DecidableEq, Repr

namespace Channel

def readers : Channel → List Kind
  | keypad => [.skipPressed, .skipReleased, .awaitKey]
  | timers => [.readDelay]
  | random => [.random]
  | screen => [.draw]
  | dirty => []
  | stack => [.ret]

def mask (m : Machine) : Channel → Machine
  | keypad => { m with keypad := Keypad.released }
  | timers => { m with delay := 0, sound := 0, coupled := false }
  | random => { m with random := ⟨0, 0⟩ }
  | screen => { m with screen := Bitmap.blank }
  | dirty => { m with dirty := false }
  | stack => { m with stack := CallStack.empty }

def Agree (c : Channel) (m k : Machine) : Prop := mask m c = mask k c

/-- What an event tells that does not hang on a channel: all of it, but for the tone
that is given by the timers. -/
def visible (e : Event) : Channel → Event
  | timers => { e with tone := false }
  | _ => e

variable (c : Channel) (m : Machine)

theorem mask_fetch : (mask m c).fetch = (mask m.fetch.1 c, m.fetch.2) := by
  cases c <;> rfl

/-- What an instruction that does not read a channel leaves outside of it does not
depend on it. -/
theorem mask_execute (i : Instruction) (hi : i.kind ∉ c.readers) :
    mask ((mask m c).execute i) c = mask (m.execute i) c := by
  cases i with
  | ret =>
    cases c with
    | stack => simp [Instruction.kind, readers] at hi
    | _ => rfl
  | random x byte =>
    cases c with
    | random => simp [Instruction.kind, readers] at hi
    | _ => rfl
  | draw x y height =>
    cases c with
    | screen => simp [Instruction.kind, readers] at hi
    | _ => rfl
  | readDelay x =>
    cases c with
    | timers => simp [Instruction.kind, readers] at hi
    | _ => rfl
  | awaitKey x =>
    have hkeypad : (mask m c).keypad = m.keypad := by
      cases c with
      | keypad => simp [Instruction.kind, readers] at hi
      | _ => rfl
    rw [Machine.execute, Machine.execute, Machine.awaitKey, Machine.awaitKey, hkeypad]
    cases m.keypad.lowest? with
    | none => cases c <;> rfl
    | some key => cases c <;> rfl
  | skipPressed x | skipReleased x =>
    cases c with
    | keypad => simp [Instruction.kind, readers] at hi
    | _ =>
      rw [Machine.execute, Machine.execute, Machine.skipIf_eq, Machine.skipIf_eq]
      rfl
  | skipEqualByte | skipUnequalByte | skipEqual | skipUnequal =>
    rw [Machine.execute, Machine.execute, Machine.skipIf_eq, Machine.skipIf_eq]
    cases c <;> rfl
  | _ => cases c <;> rfl

theorem mask_tick (hc : c ≠ .timers) : (mask m c).tick = (mask m.tick.1 c, m.tick.2) := by
  cases c with
  | timers => exact absurd rfl hc
  | _ => rfl

namespace Agree

variable {c : Channel} {m k : Machine}

theorem fetch (h : c.Agree m k) : c.Agree m.fetch.1 k.fetch.1 ∧ m.fetch.2 = k.fetch.2 := by
  have hfetch : (mask m c).fetch = (mask k c).fetch := congrArg Machine.fetch h
  rw [mask_fetch, mask_fetch, Prod.mk.injEq] at hfetch
  exact hfetch

theorem nextInstruction (h : c.Agree m k) : m.nextInstruction = k.nextInstruction :=
  congrArg Instruction.ofWord h.fetch.2

theorem execute (h : c.Agree m k) (i : Instruction) (hi : i.kind ∉ c.readers) :
    c.Agree (m.execute i) (k.execute i) := by
  have hmasked : mask ((mask m c).execute i) c = mask ((mask k c).execute i) c :=
    congrArg (fun m => mask (m.execute i) c) h
  rw [mask_execute _ _ _ hi, mask_execute _ _ _ hi] at hmasked
  exact hmasked

theorem tick (h : c.Agree m k) (hc : c ≠ .timers) :
    c.Agree m.tick.1 k.tick.1 ∧ m.tick.2 = k.tick.2 := by
  have htick : (mask m c).tick = (mask k c).tick := congrArg Machine.tick h
  rw [mask_tick _ _ hc, mask_tick _ _ hc, Prod.mk.injEq] at htick
  exact htick

theorem of_ticks {delay sound delay' sound' : UInt8} (h : Agree .timers m k) :
    Agree .timers { m with delay := delay, sound := sound }
      { k with delay := delay', sound := sound' } := h

theorem pc (h : c.Agree m k) : m.pc = k.pc := by
  have hpc := congrArg Machine.pc h
  cases c <;> exact hpc

theorem memory (h : c.Agree m k) : m.memory = k.memory := by
  have hmemory := congrArg Machine.memory h
  cases c <;> exact hmemory

theorem coupled (h : c.Agree m k) (hc : c ≠ .timers) : m.coupled = k.coupled := by
  have hcoupled := congrArg Machine.coupled h
  cases c with
  | timers => exact absurd rfl hc
  | _ => exact hcoupled

theorem keypad (h : c.Agree m k) (hc : c ≠ .keypad) : m.keypad = k.keypad := by
  have hkeypad := congrArg Machine.keypad h
  cases c with
  | keypad => exact absurd rfl hc
  | _ => exact hkeypad

/-- Two machines of which none reads the keys, or which have the same ones, wait alike. -/
theorem blocked_iff (h : c.Agree m k) (hi : m.nextInstruction.kind ∉ c.readers) :
    m.Blocked ↔ k.Blocked := by
  unfold Machine.Blocked
  rw [← h.nextInstruction]
  by_cases hc : c = .keypad
  · have hwait : m.nextInstruction.kind ≠ .awaitKey := by
      intro heq
      rw [heq, hc] at hi
      exact hi (by decide)
    simp only [hwait, false_and]
  · rw [h.keypad hc]

theorem visible_step (h : c.Agree m k) (hi : m.nextInstruction.kind ∉ c.readers)
    (htone : c = .timers ∨ m.step.2.tone = k.step.2.tone) :
    visible m.step.2 c = visible k.step.2 c := by
  have hevent : m.step.2 = { k.step.2 with tone := m.step.2.tone } := by
    rw [m.event_step, k.event_step, h.pc, h.memory, h.nextInstruction,
      decide_eq_decide.2 (h.blocked_iff hi)]
  rw [hevent]
  cases c with
  | timers => rfl
  | _ => rw [htone.resolve_left (by decide)]

/-- Unless the timers differ, both machines tick or neither does. -/
theorem step_of_ne_timers (h : c.Agree m k) (hi : m.nextInstruction.kind ∉ c.readers)
    (hc : c ≠ .timers) : c.Agree m.step.1 k.step.1 ∧ m.step.2.tone = k.step.2.tone := by
  have hafter := h.fetch.1.execute m.nextInstruction hi
  have hticked : k.stepAct.ticked = m.stepAct.ticked := by
    rw [Machine.stepAct, Machine.stepAct, h.coupled hc, decide_eq_decide.2 (h.blocked_iff hi)]
  have hm := m.step_eq_tick
  have hk := k.step_eq_tick
  rw [hticked, ← h.nextInstruction] at hk
  cases hcase : m.stepAct.ticked with
  | true =>
    have hticks := hafter.tick hc
    rw [hcase, if_pos rfl] at hm hk
    rw [← hm, ← hk] at hticks
    exact hticks
  | false =>
    rw [hcase, if_neg Bool.false_ne_true, Prod.mk.injEq] at hm hk
    obtain ⟨hm, hmtone⟩ := hm
    obtain ⟨hk, hktone⟩ := hk
    rw [hm, hk, hmtone, hktone]
    exact ⟨hafter, rfl⟩

theorem step (h : c.Agree m k) (hi : m.step.2.kind ∉ c.readers) :
    c.Agree m.step.1 k.step.1 ∧ visible m.step.2 c = visible k.step.2 c := by
  rw [Machine.kind_step] at hi
  by_cases hc : c = .timers
  · refine ⟨?_, h.visible_step hi (Or.inl hc)⟩
    have hafter := h.fetch.1.execute m.nextInstruction hi
    -- perhaps only one of the two ticks, and that leaves all but the timers alone
    obtain ⟨delay, sound, hm⟩ := m.exists_step_eq
    obtain ⟨delay', sound', hk⟩ := k.exists_step_eq
    rw [hm, hk, ← h.nextInstruction]
    subst hc
    exact hafter.of_ticks
  · obtain ⟨hstep, htone⟩ := h.step_of_ne_timers hi hc
    exact ⟨hstep, h.visible_step hi (Or.inr htone)⟩

theorem run (h : c.Agree m k) (n : Nat) (hi : ∀ e ∈ (m.run n).2, e.kind ∉ c.readers) :
    c.Agree (m.run n).1 (k.run n).1 ∧
      (m.run n).2.map (visible · c) = (k.run n).2.map (visible · c) := by
  induction n generalizing m k with
  | zero => exact ⟨h, rfl⟩
  | succ n ih =>
    rw [Machine.run, List.forall_mem_cons] at hi
    obtain ⟨hstep, hevent⟩ := h.step hi.1
    obtain ⟨hrun, hevents⟩ := ih hstep hi.2
    refine ⟨hrun, ?_⟩
    rw [Machine.run, Machine.run, List.map_cons, List.map_cons, hevent, hevents]

end Agree

theorem visible_of_ne_timers (e : Event) (hc : c ≠ .timers) : visible e c = e := by
  cases c with
  | timers => exact absurd rfl hc
  | _ => rfl

variable {m k : Machine}

/-- What a channel holds makes no difference to a run that does not read it, neither
to the rest of the machine nor, the tones of the timers apart, to the events. -/
theorem run_eq_outside (h : c.Agree m k) (n : Nat)
    (hunread : ∀ e ∈ (m.run n).2, e.kind ∉ c.readers) :
    c.Agree (m.run n).1 (k.run n).1 ∧
      (m.run n).2.map (visible · c) = (k.run n).2.map (visible · c) ∧
      (c ≠ .timers → (m.run n).2 = (k.run n).2) := by
  obtain ⟨hrun, hevents⟩ := h.run n hunread
  refine ⟨hrun, hevents, ?_⟩
  intro hc
  have hall (events : List Event) : events.map (visible · c) = events := by
    apply List.map_id''
    intro e
    exact c.visible_of_ne_timers e hc
  rwa [hall, hall] at hevents

/-- No instruction reads whether the screen was shown. -/
theorem run_of_markShown_eq (h : m.markShown = k.markShown) (n : Nat) :
    (m.run n).1.markShown = (k.run n).1.markShown ∧ (m.run n).2 = (k.run n).2 := by
  have hagree : Channel.Agree .dirty m k := h
  obtain ⟨hrun, -, hevents⟩ := run_eq_outside .dirty hagree n fun e _ => List.not_mem_nil
  exact ⟨hrun, hevents (by decide)⟩

def sounding : Machine :=
  let fresh := Machine.fresh ⟨0, 0⟩ true
  let program := [0x60, 0x01, 0xF0, 0x18, 0xF0, 0x0A]
  { fresh with memory := fresh.memory.writeBytes Program.origin program }

def decoupled : Machine := { sounding with delay := 9, sound := 7, coupled := false }

/-- The machines stay equal but for their timers, although only one of them gives a tone. -/
theorem run_eq_outside_timers :
    Agree .timers sounding decoupled ∧
      (∀ e ∈ (sounding.run 3).2, e.kind ∉ readers .timers) ∧
      Agree .timers (sounding.run 3).1 (decoupled.run 3).1 ∧
      (sounding.run 3).2.map (visible · .timers) = (decoupled.run 3).2.map (visible · .timers) ∧
      (sounding.run 3).2 ≠ (decoupled.run 3).2 := by
  have hagree : Agree .timers sounding decoupled := rfl
  have hunread : ∀ e ∈ (sounding.run 3).2, e.kind ∉ readers .timers := by decide +kernel
  obtain ⟨hrun, hevents, -⟩ := run_eq_outside .timers hagree 3 hunread
  exact ⟨hagree, hunread, hrun, hevents, by decide +kernel⟩

end Channel

end ChipEight
