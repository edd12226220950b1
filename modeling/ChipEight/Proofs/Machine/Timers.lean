import ChipEight.Batch
import ChipEight.Proofs.Machine.Footprint
import Mathlib.Data.List.Infix

/-!
The two timers over any sequence of operations. An act of the machine, a step or
a tick of the host, may write a timer and may then count both down. So a timer
always holds the value written last, less one for each tick since, the tick of
that same act included, and not below zero. The tone is given by the very tick
that uses up the value of the sound timer, hence once at most for each value.
-/

namespace ChipEight

inductive Timer where
  | delay | sound
  deriving DecidableEq, Repr

/-- What an act of the machine had to do with the timers: the values that its
instruction wrote, whether it then counted them down and whether it gave a tone. -/
structure TimerAct where
  written : Timer → Option UInt8
  ticked : Bool
  tone : Bool

namespace TimerAct

variable (t : Timer) (initial : UInt8)

/-- The value that was written last, the initial one if none was. The newest act
is the first of a history. -/
def lastWritten (history : List TimerAct) : UInt8 :=
  (history.findSome? fun a => a.written t).getD initial

def sinceWritten (history : List TimerAct) : List TimerAct :=
  history.take (history.findIdx (fun a => (a.written t).isSome) + 1)

def ticksSince (history : List TimerAct) : Nat := (sinceWritten t history).countP TimerAct.ticked

theorem lastWritten_cons (a : TimerAct) (earlier : List TimerAct) :
    lastWritten t initial (a :: earlier) = (a.written t).getD (lastWritten t initial earlier) := by
  unfold lastWritten
  rw [List.findSome?_cons]
  cases a.written t with
  | none => rfl
  | some b => rfl

theorem ticksSince_cons (a : TimerAct) (earlier : List TimerAct) :
    ticksSince t (a :: earlier) =
      (if (a.written t).isSome then 0 else ticksSince t earlier) + a.ticked.toNat := by
  unfold ticksSince sinceWritten
  rw [List.findIdx_cons]
  cases a.written t with
  | none =>
    simp only [Option.isSome_none, List.take_succ_cons, List.countP_cons,
      Bool.false_eq_true, if_false, Bool.cond_eq_ite]
    cases a.ticked <;> rfl
  | some b =>
    simp only [Option.isSome_some, cond_true, Nat.zero_add, List.take_succ_cons, List.take_zero,
      List.countP_cons, List.countP_nil, if_true]
    cases a.ticked <;> rfl

section Unwritten

variable {newer older : List TimerAct} (h : ∀ a ∈ newer, a.written t = none)

include h

theorem lastWritten_append :
    lastWritten t initial (newer ++ older) = lastWritten t initial older := by
  induction newer with
  | nil => rfl
  | cons a rest ih =>
    obtain ⟨ha, hrest⟩ := List.forall_mem_cons.1 h
    rw [List.cons_append, lastWritten_cons, ha, Option.getD_none, ih hrest]

theorem ticksSince_append :
    ticksSince t (newer ++ older) = newer.countP TimerAct.ticked + ticksSince t older := by
  induction newer with
  | nil => exact (Nat.zero_add _).symm
  | cons a rest ih =>
    obtain ⟨ha, hrest⟩ := List.forall_mem_cons.1 h
    rw [List.cons_append, ticksSince_cons, ha, ih hrest, List.countP_cons]
    cases a.ticked with
    | false => simp
    | true => simp; omega

end Unwritten

end TimerAct

namespace Machine

variable (m : Machine)

def timer : Timer → UInt8
  | .delay => m.delay
  | .sound => m.sound

def timerWrite : Instruction → Timer → Option UInt8
  | .setDelay x, .delay => some (m.reg x)
  | .setSound x, .sound => some (m.reg x)
  | _, _ => none

def Blocked : Prop := m.nextInstruction.kind = .awaitKey ∧ ∀ k, m.keypad.isPressed k = false

instance : Decidable m.Blocked := inferInstanceAs (Decidable (_ ∧ _))

/-- The act of the next step. It ticks if the timers count instructions, but not
while the machine waits for a key. -/
def stepAct : TimerAct where
  written := m.timerWrite m.nextInstruction
  ticked := m.coupled && !decide m.Blocked
  tone := m.step.2.tone

def tickAct : TimerAct where
  written _ := none
  ticked := true
  tone := m.tick.2

/-- What an act does to the timers of a machine and when it gives a tone. -/
structure Timed (a : TimerAct) (m k : Machine) : Prop where
  timer : ∀ t, (k.timer t).toNat = ((a.written t).getD (m.timer t)).toNat - a.ticked.toNat
  tone : a.tone = (a.ticked && (a.written .sound).getD m.sound == 1)

/-- A timer goes down by one and stays at zero. -/
theorem toNat_timer_tick (t : Timer) : (m.tick.1.timer t).toNat = (m.timer t).toNat - 1 := by
  have hdown (b : UInt8) : (if b = 0 then 0 else b - 1).toNat = b.toNat - 1 := by
    split
    case isTrue h => rw [h]; rfl
    case isFalse h =>
      have hpos : 1 ≤ b := by
        rw [UInt8.le_iff_toNat_le]
        have hne : b.toNat ≠ 0 := fun hzero => h (UInt8.toNat_inj.1 hzero)
        change 1 ≤ b.toNat
        omega
      rw [UInt8.toNat_sub_of_le _ _ hpos]
      rfl
  cases t with
  | delay => exact hdown m.delay
  | sound => exact hdown m.sound

theorem timed_tick : Timed m.tickAct m m.tick.1 where
  timer t := m.toNat_timer_tick t
  tone := rfl

/-- Nothing but the two instructions that set them writes to the timers. -/
theorem timer_execute (i : Instruction) (t : Timer) :
    (m.execute i).timer t = (m.timerWrite i t).getD (m.timer t) := by
  cases i with
  | setDelay x | setSound x => cases t <;> rfl
  | awaitKey x =>
    obtain ⟨registers, pc, h⟩ := m.exists_awaitKey_eq x
    rw [execute, h]
    cases t <;> rfl
  | skipEqualByte | skipUnequalByte | skipEqual | skipUnequal | skipPressed | skipReleased =>
    rw [execute, skipIf_eq]
    cases t <;> rfl
  | loadRegisters last =>
    rw [execute, loadRegisters]
    cases t <;> rfl
  | _ => cases t <;> rfl

theorem waiting_step : m.step.2.waiting = decide m.Blocked := by
  have hkeypad : (m.fetch.1.execute m.nextInstruction).keypad = m.keypad :=
    (m.fetch.1.keypad_execute m.nextInstruction).1
  have hwaiting : m.step.2.waiting = (m.nextInstruction.kind == .awaitKey &&
      !(m.fetch.1.execute m.nextInstruction).keypad.anyPressed) := rfl
  rw [hwaiting, hkeypad, Bool.eq_iff_iff, Bool.and_eq_true, beq_iff_eq, Bool.not_eq_true',
    decide_eq_true_eq, Blocked, ← Bool.not_eq_true, Keypad.anyPressed_eq_true_iff, not_exists]
  simp only [Bool.not_eq_true]

/-- A step is its instruction and, if it ticks, a tick of the timers. -/
theorem step_eq_tick : (m.step.1, m.step.2.tone) =
    if m.stepAct.ticked then (m.fetch.1.execute m.nextInstruction).tick
    else (m.fetch.1.execute m.nextInstruction, false) := by
  have hcoupled : (m.fetch.1.execute m.nextInstruction).coupled = m.coupled :=
    (m.fetch.1.keypad_execute m.nextInstruction).2
  have hticked : ((m.fetch.1.execute m.nextInstruction).coupled && !m.step.2.waiting) =
      m.stepAct.ticked := by rw [hcoupled, waiting_step, stepAct]
  rw [← hticked]
  rfl

theorem timed_step : Timed m.stepAct m m.step.1 := by
  have hwritten (t : Timer) : (m.fetch.1.execute m.nextInstruction).timer t =
      (m.stepAct.written t).getD (m.timer t) := m.fetch.1.timer_execute m.nextInstruction t
  have hstep := m.step_eq_tick
  cases hticked : m.stepAct.ticked with
  | true =>
    rw [hticked, if_pos rfl, Prod.ext_iff] at hstep
    obtain ⟨hafter, htone⟩ := hstep
    constructor
    · intro t
      rw [hafter, toNat_timer_tick, hwritten, hticked]
      rfl
    · rw [hticked, Bool.true_and]
      exact htone.trans (congrArg (· == 1) (hwritten .sound))
  | false =>
    rw [hticked, if_neg Bool.false_ne_true, Prod.ext_iff] at hstep
    obtain ⟨hafter, htone⟩ := hstep
    constructor
    · intro t
      rw [hafter, hwritten, hticked]
      rfl
    · rw [hticked, Bool.false_and]
      exact htone

end Machine

/-- What can be done with a machine on its own. -/
inductive Operation where
  | step
  | run (count : Nat)
  | tick
  | setKey (key : Int) (pressed : Bool)
  | setKeys (flags : List Bool)
  deriving DecidableEq, Repr

namespace Machine

variable (m : Machine)

/-- The machine after an operation, and for each of its acts, the oldest first,
whether it reported a tone. What is refused leaves the machine as it was. -/
def perform : Operation → Machine × List Bool
  | .step => (m.step.1, [m.step.2.tone])
  | .run count =>
    match Batch.check count with
    | .ok () => ((m.run count).1, (m.run count).2.map Event.tone)
    | .error _ => (m, [])
  | .tick => (m.tick.1, [m.tick.2])
  | .setKey key pressed => ((m.setKey key pressed).toOption.getD m, [])
  | .setKeys flags => ((m.setKeys flags).toOption.getD m, [])

def runActs : Nat → List TimerAct
  | 0 => []
  | n + 1 => (m.run n).1.stepAct :: runActs n

def acts : Operation → List TimerAct
  | .step => [m.stepAct]
  | .run count =>
    match Batch.check count with
    | .ok () => m.runActs count
    | .error _ => []
  | .tick => [m.tickAct]
  | .setKey _ _ => []
  | .setKeys _ => []

def performAll (m : Machine) : List Operation → Machine × List Bool
  | [] => (m, [])
  | op :: rest =>
    let first := m.perform op
    let others := performAll first.1 rest
    (others.1, first.2 ++ others.2)

def history (m : Machine) : List Operation → List TimerAct
  | [] => []
  | op :: rest => history (m.perform op).1 rest ++ m.acts op

/-- Changing the machine, where that is allowed, keeps the timers that the change
keeps. -/
theorem timer_getD_map {α : Type} (allowed : Except Fault α) (change : α → Machine)
    (hkeep : ∀ x t, (change x).timer t = m.timer t) (t : Timer) :
    ((allowed.map change).toOption.getD m).timer t = m.timer t := by
  cases allowed with
  | error fault => rfl
  | ok x => exact hkeep x t

end Machine

/-- The timers of a machine follow from what it did since they had their initial
values: each holds what was written last less the ticks since, and a tone came
with an act exactly if it made the last tick of a value of the sound timer. -/
structure TimersFollow (initial : Timer → UInt8) (history : List TimerAct) (m : Machine) : Prop where
  timer : ∀ t, (m.timer t).toNat =
    (TimerAct.lastWritten t (initial t) history).toNat - TimerAct.ticksSince t history
  tone : ∀ a earlier, a :: earlier <:+ history → (a.tone = true ↔ a.ticked = true ∧
    1 ≤ (TimerAct.lastWritten .sound (initial .sound) (a :: earlier)).toNat ∧
    TimerAct.ticksSince .sound (a :: earlier) =
      (TimerAct.lastWritten .sound (initial .sound) (a :: earlier)).toNat)

namespace TimersFollow

variable {initial : Timer → UInt8} {history : List TimerAct} {m k : Machine}

theorem nil (m : Machine) : TimersFollow m.timer [] m where
  timer _ := rfl
  tone a earlier h := absurd (List.suffix_nil.1 h) (List.cons_ne_nil a earlier)

/-- One more act keeps the law, whether it writes the timers, ticks or both. -/
theorem cons (h : TimersFollow initial history m) {a : TimerAct} (ha : Machine.Timed a m k) :
    TimersFollow initial (a :: history) k := by
  have hset (t : Timer) : ((a.written t).getD (m.timer t)).toNat =
      (TimerAct.lastWritten t (initial t) (a :: history)).toNat -
        (if (a.written t).isSome then 0 else TimerAct.ticksSince t history) := by
    rw [TimerAct.lastWritten_cons]
    cases a.written t with
    | none => exact h.timer t
    | some b => rfl
  constructor
  · intro t
    have htimer := ha.timer t
    have hticks := TimerAct.ticksSince_cons t a history
    have hbefore := hset t
    omega
  · intro b earlier hsuffix
    rcases List.suffix_cons_iff.1 hsuffix with heq | hold
    · cases heq
      have hticks := TimerAct.ticksSince_cons .sound a history
      have hbefore := hset .sound
      rw [ha.tone, Bool.and_eq_true, beq_iff_eq, ← UInt8.toNat_inj]
      change a.ticked = true ∧ ((a.written .sound).getD (m.timer .sound)).toNat = 1 ↔ _
      cases hticked : a.ticked with
      | false => simp only [Bool.false_eq_true, false_and]
      | true =>
        rw [hticked, Bool.toNat_true] at hticks
        simp only [true_and]
        omega
    · exact h.tone b earlier hold

theorem of_timer_eq (h : TimersFollow initial history m) (hk : ∀ t, k.timer t = m.timer t) :
    TimersFollow initial history k where
  timer t := by rw [hk t, h.timer t]
  tone := h.tone

theorem run (h : TimersFollow initial history m) (n : Nat) :
    TimersFollow initial (m.runActs n ++ history) (m.run n).1 := by
  induction n with
  | zero => exact h
  | succ n ih =>
    rw [Machine.run_succ]
    exact ih.cons (Machine.timed_step _)

theorem perform (h : TimersFollow initial history m) (op : Operation) :
    TimersFollow initial (m.acts op ++ history) (m.perform op).1 := by
  cases op with
  | step => exact h.cons m.timed_step
  | tick => exact h.cons m.timed_tick
  | run count =>
    rw [Machine.acts, Machine.perform]
    cases Batch.check count with
    | ok _ => exact h.run count
    | error fault => exact h
  | setKey key pressed =>
    apply h.of_timer_eq
    apply m.timer_getD_map (Keypad.keyOf key)
    intro k t
    cases t <;> rfl
  | setKeys flags =>
    apply h.of_timer_eq
    apply m.timer_getD_map (Keypad.ofFlags flags)
    intro keypad t
    cases t <;> rfl

theorem performAll (h : TimersFollow initial history m) (ops : List Operation) :
    TimersFollow initial (m.history ops ++ history) (m.performAll ops).1 := by
  induction ops generalizing m history with
  | nil => exact h
  | cons op rest ih =>
    rw [Machine.history, List.append_assoc]
    exact ih (h.perform op)

/-- Two tones are given for two values: between them one was written. -/
theorem exists_written (h : TimersFollow initial history m) {a b : TimerAct}
    {between earlier : List TimerAct} (hsuffix : b :: between ++ a :: earlier <:+ history)
    (ha : a.tone = true) (hb : b.tone = true) :
    ∃ w ∈ b :: between, (w.written .sound).isSome := by
  by_contra hnone
  have hunwritten : ∀ w ∈ b :: between, w.written .sound = none := by
    intro w hw
    exact Option.not_isSome_iff_eq_none.1 fun hsome => hnone ⟨w, hw, hsome⟩
  obtain ⟨-, -, hold⟩ := (h.tone a earlier ((List.suffix_append _ _).trans hsuffix)).1 ha
  obtain ⟨hticked, -, hnew⟩ := (h.tone b _ hsuffix).1 hb
  change TimerAct.ticksSince .sound (b :: between ++ a :: earlier) =
    (TimerAct.lastWritten .sound (initial .sound) (b :: between ++ a :: earlier)).toNat at hnew
  rw [TimerAct.lastWritten_append _ _ hunwritten,
    TimerAct.ticksSince_append _ hunwritten, List.countP_cons, if_pos hticked] at hnew
  omega

end TimersFollow

namespace Machine

variable (m : Machine)

theorem tone_runActs (n : Nat) :
    (m.runActs n).map TimerAct.tone = ((m.run n).2.map Event.tone).reverse := by
  induction n with
  | zero => rfl
  | succ n ih =>
    rw [runActs, run_succ, List.map_cons, List.map_append, List.reverse_append, ih]
    rfl

theorem tone_acts (op : Operation) :
    (m.acts op).map TimerAct.tone = (m.perform op).2.reverse := by
  cases op with
  | run count =>
    rw [acts, perform]
    cases Batch.check count with
    | ok _ => exact m.tone_runActs count
    | error fault => rfl
  | _ => rfl

theorem tone_history (ops : List Operation) :
    (m.history ops).map TimerAct.tone = (m.performAll ops).2.reverse := by
  induction ops generalizing m with
  | nil => rfl
  | cons op rest ih =>
    rw [history, performAll, List.map_append, List.reverse_append, ih, tone_acts]

/-- Timers that do not count instructions are left to the host by a step. -/
theorem timer_step_of_decoupled (h : m.coupled = false) (t : Timer) :
    m.step.1.timer t = (m.timerWrite m.nextInstruction t).getD (m.timer t) ∧
      m.step.2.tone = false := by
  have hticked : m.stepAct.ticked = false := by rw [stepAct, h, Bool.false_and]
  have hstep := m.step_eq_tick
  rw [hticked, if_neg Bool.false_ne_true, Prod.ext_iff] at hstep
  obtain ⟨hafter, htone⟩ := hstep
  constructor
  · rw [hafter]
    exact m.fetch.1.timer_execute m.nextInstruction t
  · exact htone

/-- After any operations the timers and the tones follow from what was written and
how often was ticked since. A value of the sound timer gives one tone at most, and
a machine whose timers do not count instructions leaves them to the host: a step
then writes them at most and gives no tone. -/
theorem timers_follow_history (ops : List Operation) :
    TimersFollow m.timer (m.history ops) (m.performAll ops).1 ∧
      (m.history ops).map TimerAct.tone = (m.performAll ops).2.reverse ∧
      (∀ a b between earlier, b :: between ++ a :: earlier <:+ m.history ops →
        a.tone = true → b.tone = true → ∃ w ∈ b :: between, (w.written .sound).isSome) ∧
      ∀ k : Machine, k.coupled = false → ∀ t,
        k.step.1.timer t = (k.timerWrite k.nextInstruction t).getD (k.timer t) ∧
          k.step.2.tone = false := by
  have hfollow := (TimersFollow.nil m).performAll ops
  rw [List.append_nil] at hfollow
  refine ⟨hfollow, m.tone_history ops, ?_, ?_⟩
  · intro a b between earlier hsuffix ha hb
    exact hfollow.exists_written hsuffix ha hb
  · intro k hk t
    exact k.timer_step_of_decoupled hk t

def waitingMachine : Machine :=
  let fresh := Machine.fresh ⟨0, 0⟩ true
  let program := [0x60, 0x03, 0xF0, 0x18, 0xF0, 0x0A]
  { fresh with memory := fresh.memory.writeBytes Program.origin program }

/-- Three steps, of which the last is blocked, a tick, a key that there is not,
one that there is, and the step that reads it. -/
def waitingOperations : List Operation :=
  [.run 3, .tick, .setKey 16 true, .setKey 5 true, .step]

/-- The value is used up by the third tick, which is that of the last step. -/
theorem timers_follow_waiting :
    ((waitingMachine.performAll waitingOperations).1.timer .sound).toNat = 3 - 3 ∧
      (waitingMachine.performAll waitingOperations).2.reverse =
        [true, false, false, false, false] := by
  obtain ⟨hfollow, htones, -, -⟩ := waitingMachine.timers_follow_history waitingOperations
  have hvalue : TimerAct.lastWritten .sound (waitingMachine.timer .sound)
      (waitingMachine.history waitingOperations) = 3 := by decide +kernel
  have hticks : TimerAct.ticksSince .sound (waitingMachine.history waitingOperations) = 3 := by
    decide +kernel
  constructor
  · rw [hfollow.timer, hvalue, hticks]
    rfl
  · rw [← htones]
    decide +kernel

end Machine

end ChipEight
