import ChipEight.Proofs.Host.Serving
import ChipEight.Proofs.Host.Stepwise
import ChipEight.Proofs.Log.Reports
import ChipEight.Proofs.Machine.AddressAlias

/-!
What the journal of a host is told. Each request tells it a list of reports that follows
from the host before the request: a program that was loaded, a traced instruction, the
events of the steps that came to their end, a tone of a tick. The journal depends on
these reports alone. A step that a strict host stops at has no end and tells nothing.
-/

namespace ChipEight

def Event.reports (e : Event) : List Report :=
  (if e.unknown then
    [.unknownOpcode (Fault.unknownOpcode e.instruction.toNat e.address.toNat).message] else []) ++
    if e.tone then [.tone e.address.toNat] else []

def HostSetup.stops (setup : HostSetup) (e : Event) : Bool := e.unknown && setup.strict

theorem HostSetup.stops_of_strict {setup : HostSetup} (hstrict : setup.strict = true) :
    setup.stops = Event.unknown := by
  funext e
  rw [stops, hstrict, Bool.and_true]

/-- The reports of a single step: its trace, if steps are traced, and its events, unless
the host stops at it. -/
def HostSetup.told (setup : HostSetup) (e : Event) : List Report :=
  (if setup.trace then [.executed e.address.toNat e.instruction.toNat] else []) ++
    if setup.stops e then [] else e.reports

def HostSetup.answer (setup : HostSetup) (e : Event) : Except Fault Reply :=
  if setup.stops e then .error (.unknownOpcode e.instruction.toNat e.address.toNat)
  else .ok (.stepped e)

/-- Counting what each entry of a list gives, if it gives one or nothing, is counting the
entries that give one. -/
theorem countP_flatMap_eq {α β : Type} {f : α → List β} {p : β → Bool} {q : α → Bool}
    {xs : List α} (hone : ∀ x ∈ xs, (f x).countP p = (q x).toNat) :
    (xs.flatMap f).countP p = xs.countP q := by
  induction xs with
  | nil => rfl
  | cons x rest ih =>
    obtain ⟨hx, hrest⟩ := List.forall_mem_cons.1 hone
    rw [List.flatMap_cons, List.countP_append, List.countP_cons, hx, ih hrest, Nat.add_comm]
    cases q x <;> rfl

theorem Event.countP_reports (e : Event) :
    e.reports.countP Report.isUnknownOpcode = e.unknown.toNat ∧
      e.reports.countP Report.isTone = e.tone.toNat := by
  unfold reports
  cases e.unknown <;> cases e.tone <;> exact ⟨rfl, rfl⟩

theorem Event.countP_flatMap_reports (events : List Event) :
    (events.flatMap Event.reports).countP Report.isUnknownOpcode = events.countP Event.unknown ∧
      (events.flatMap Event.reports).countP Report.isTone = events.countP Event.tone :=
  ⟨countP_flatMap_eq fun e _ => e.countP_reports.1, countP_flatMap_eq fun e _ => e.countP_reports.2⟩

/-- The reports of steps that are no stops count their events. -/
theorem HostSetup.countP_flatMap_told (setup : HostSetup) {events : List Event}
    (hgo : ∀ e ∈ events, setup.stops e = false) :
    (events.flatMap setup.told).countP Report.isUnknownOpcode = events.countP Event.unknown ∧
      (events.flatMap setup.told).countP Report.isTone = events.countP Event.tone := by
  have htold : ∀ e ∈ events, (setup.told e).countP Report.isUnknownOpcode = e.unknown.toNat ∧
      (setup.told e).countP Report.isTone = e.tone.toNat := by
    intro e he
    rw [told, hgo e he, List.countP_append, List.countP_append]
    obtain ⟨hunknown, htone⟩ := e.countP_reports
    cases setup.trace <;> exact ⟨(Nat.zero_add _).trans hunknown, (Nat.zero_add _).trans htone⟩
  exact ⟨countP_flatMap_eq fun e he => (htold e he).1, countP_flatMap_eq fun e he => (htold e he).2⟩

namespace Journal

variable (setup : HostSetup) (j : Journal)

def record (reports : List Report) : Journal where
  log := j.log.reportAll reports
  heard := if setup.listening then j.heard + reports.countP Report.isTone else j.heard

theorem record_nil : j.record setup [] = j := by
  unfold record
  cases setup.listening <;> rfl

theorem record_append (first second : List Report) :
    j.record setup (first ++ second) = (j.record setup first).record setup second := by
  simp only [record, Log.reportAll_append, List.countP_append]
  cases setup.listening
  · rfl
  · simp [Nat.add_assoc]

theorem tell_eq_record (r : Report) (hr : r.isTone = false) : j.tell r = j.record setup [r] := by
  have hnone : [r].countP Report.isTone = 0 := by rw [List.countP_cons, hr]; rfl
  unfold record
  rw [hnone]
  cases setup.listening <;> rfl

/-- A step that comes to its end is reported, and one that does not is a fault. -/
theorem observe_eq (e : Event) : j.observe setup e =
    if setup.stops e then (j, .error (.unknownOpcode e.instruction.toNat e.address.toNat))
    else Attempt.done (j.record setup e.reports) := by
  have htold (text : String) :
      (if e.unknown then j.tell (.unknownOpcode text) else j) =
        j.record setup (if e.unknown then [.unknownOpcode text] else []) := by
    cases e.unknown with
    | true => exact j.tell_eq_record setup _ rfl
    | false => exact (j.record_nil setup).symm
  have hheard (k : Journal) : (if e.tone then hear setup k e.address else k) =
      k.record setup (if e.tone then [.tone e.address.toNat] else []) := by
    cases e.tone with
    | true => rfl
    | false => exact (k.record_nil setup).symm
  simp only [observe, HostSetup.stops, Event.reports, record_append, htold, hheard]

/-- The events of a batch are reported up to the first that is a fault. -/
theorem observeAll_fst (events : List Event) : (j.observeAll setup events).1 =
    j.record setup ((events.takeWhile fun e => !setup.stops e).flatMap Event.reports) := by
  induction events generalizing j with
  | nil => exact (j.record_nil setup).symm
  | cons e rest ih =>
    rw [observeAll, Attempt.forEach, observe_eq, List.takeWhile_cons]
    cases setup.stops e with
    | true => exact (j.record_nil setup).symm
    | false =>
      rw [Bool.not_false, if_pos rfl, List.flatMap_cons, record_append]
      exact ih (j.record setup e.reports)

/-- The fault of a batch is that of the first event that is one. -/
theorem observeAll_snd (events : List Event) : (j.observeAll setup events).2 =
    match events.find? setup.stops with
    | some e => .error (.unknownOpcode e.instruction.toNat e.address.toNat)
    | none => .ok () := by
  induction events generalizing j with
  | nil => rfl
  | cons e rest ih =>
    rw [observeAll, Attempt.forEach, observe_eq, List.find?_cons]
    cases setup.stops e with
    | true => rfl
    | false => exact ih (j.record setup e.reports)

end Journal

namespace Host

variable (files : Files) (h : Host)

/-- The events of the steps of a request that came to their end. A strict host
stops at an unknown opcode, and that step does not. -/
def completed (r : Request) : List Event := (h.made r).filter fun e => !h.setup.stops e

def noted (r : Request) : List Report :=
  match r with
  | .load source numbers =>
    match Program.ofNumbers numbers with
    | .ok p => [.loaded source p.size]
    | .error _ => []
  | .loadFile name =>
    match files.program name with
    | .ok p => [.loaded name p.size]
    | .error _ => []
  | .step =>
    if h.setup.trace then
      [.executed h.machine.step.2.address.toNat h.machine.step.2.instruction.toNat] else []
  | .tick => if h.machine.tick.2 then [.tone h.machine.pc.toNat] else []
  | _ => []

def told (r : Request) : List Report :=
  h.noted files r ++ (h.completed r).flatMap Event.reports

theorem completed_step :
    h.completed .step = if h.setup.stops h.machine.step.2 then [] else [h.machine.step.2] := by
  rw [completed, made, List.filter_singleton]
  cases h.setup.stops h.machine.step.2 <;> rfl

/-- A batch and the whole run have the same first event that the host stops at. -/
theorem find?_batch (n : Nat) :
    (h.batch n).2.find? h.setup.stops = (h.machine.run n).2.find? h.setup.stops := by
  induction n generalizing h with
  | zero => rw [batch_zero]; rfl
  | succ n ih =>
    rw [Machine.run, List.find?_cons]
    cases hstop : h.setup.stops h.machine.step.2 with
    | true => simp [h.batch_succ_of_stop n hstop, hstop]
    | false =>
      have hrest := ih h.advance
      rw [h.batch_succ n hstop, List.find?_cons, hstop]
      exact hrest

/-- A strict host stops in the last step of a batch or in none, so what is reported
up to the first stop is all that came to an end. -/
theorem takeWhile_batch (n : Nat) :
    (h.batch n).2.takeWhile (fun e => !h.setup.stops e) =
      (h.batch n).2.filter fun e => !h.setup.stops e := by
  induction n generalizing h with
  | zero => rw [batch_zero]; rfl
  | succ n ih =>
    cases hstop : h.setup.stops h.machine.step.2 with
    | true => simp [h.batch_succ_of_stop n hstop, hstop]
    | false =>
      have hrest := ih h.advance
      rw [h.batch_succ n hstop, List.takeWhile_cons, List.filter_cons, hstop]
      exact congrArg _ hrest

/-- A batch ends with the first event that the host stops at. -/
theorem exists_batch_eq_concat {n : Nat} {e : Event}
    (hfound : (h.batch n).2.find? h.setup.stops = some e) :
    ∃ before, (h.batch n).2 = before ++ [e] ∧ ∀ x ∈ before, h.setup.stops x = false := by
  induction n generalizing h with
  | zero =>
    rw [batch_zero] at hfound
    cases hfound
  | succ n ih =>
    cases hstop : h.setup.stops h.machine.step.2 with
    | true =>
      rw [h.batch_succ_of_stop n hstop, List.find?_singleton, hstop] at hfound
      cases hfound
      exact ⟨[], by rw [h.batch_succ_of_stop n hstop]; rfl, fun x hx => absurd hx List.not_mem_nil⟩
    | false =>
      rw [h.batch_succ n hstop, List.find?_cons, hstop] at hfound
      obtain ⟨before, hbatch, hgo⟩ := ih h.advance hfound
      refine ⟨h.machine.step.2 :: before, ?_, List.forall_mem_cons.2 ⟨hstop, hgo⟩⟩
      rw [h.batch_succ n hstop, hbatch]
      rfl

/-- The answer to a batch is that of its first event that the host stops at. -/
theorem answer_run {n : Nat} (hcheck : Batch.check n = .ok ()) :
    (h.serve files (.run n)).2 =
      match (h.made (.run n)).find? h.setup.stops with
      | some e => .error (.unknownOpcode e.instruction.toNat e.address.toNat)
      | none => .ok (.ran (h.made (.run n))) := by
  have hanswer : (h.serve files (.run n)).2 =
      ((h.journal.observeAll h.setup (h.batch n).2).2.map fun _ => (h.batch n).2).map .ran := by
    rw [serve, hcheck]
    rfl
  have hmade : h.made (.run n) = (h.batch n).2 := by rw [made, hcheck]
  rw [hanswer, Journal.observeAll_snd, hmade]
  cases (h.batch n).2.find? h.setup.stops <;> rfl

/-- A look at an address finds what a machine of that memory fetches whose program counter
is in the same cell. -/
theorem peek_eq_fetch {address : Int} {m : Machine} (hmemory : m.memory = h.machine.memory)
    (hpc : (m.pc.toNat : Int) % 4096 = address % 4096) : h.peek address = m.fetch.2 := by
  rw [peek, Machine.fetch, hmemory]
  exact Memory.word_congr _ (by omega)

/-- What stands at the program counter is the instruction of the next step. -/
theorem peek_pc : h.peek h.machine.pc.toNat = h.machine.step.2.instruction :=
  h.peek_eq_fetch rfl rfl

/-- A step moves the machine and the counter whether or not the host stops at it, and it
tells its reports. -/
theorem step_eq_told : h.step =
    ({ h.advance with journal := h.journal.record h.setup (h.setup.told h.machine.step.2) },
      if h.setup.stops h.machine.step.2 then
        .error (.unknownOpcode h.machine.step.2.instruction.toNat h.machine.step.2.address.toNat)
      else .ok h.machine.step.2) := by
  have htraced : h.traceNext.journal = h.journal.record h.setup
      (if h.setup.trace then
        [.executed h.machine.step.2.address.toNat h.machine.step.2.instruction.toNat]
      else []) := by
    unfold traceNext
    cases h.setup.trace with
    | true =>
      rw [if_pos rfl, if_pos rfl, peek_pc]
      exact h.journal.tell_eq_record h.setup _ rfl
    | false => exact (h.journal.record_nil h.setup).symm
  rw [step, Journal.observe_eq, htraced, HostSetup.told, Journal.record_append]
  cases h.setup.stops h.machine.step.2 with
  | true => rw [if_pos rfl, if_pos rfl, if_pos rfl, Journal.record_nil]; rfl
  | false => rfl

theorem serve_step_eq : h.serve files .step =
    ({ h.advance with journal := h.journal.record h.setup (h.setup.told h.machine.step.2) },
      h.setup.answer h.machine.step.2) := by
  rw [serve, step_eq_told, HostSetup.answer]
  cases h.setup.stops h.machine.step.2 <;> rfl

theorem told_step : h.told files .step = h.setup.told h.machine.step.2 := by
  rw [told, completed_step, HostSetup.told]
  cases h.setup.stops h.machine.step.2 with
  | true => rfl
  | false => rw [if_neg Bool.false_ne_true, if_neg Bool.false_ne_true, List.flatMap_singleton]; rfl

/-- The journal after a request is the one before it, told the reports of the request. -/
theorem journal_serve (r : Request) :
    (h.serve files r).1.journal = h.journal.record h.setup (h.told files r) := by
  have hnothing := (h.journal.record_nil h.setup).symm
  cases r with
  | load source numbers =>
    rw [serve, told, noted]
    cases Program.ofNumbers numbers with
    | error fault => exact hnothing
    | ok p => exact h.journal.tell_eq_record h.setup _ rfl
  | loadFile name =>
    rw [serve, loadFile, told, noted]
    cases files.program name with
    | error fault => exact hnothing
    | ok p => exact h.journal.tell_eq_record h.setup _ rfl
  | step => rw [told_step, serve, step_eq_told]; rfl
  | run count =>
    rw [serve, told, completed, made]
    cases Batch.check count with
    | error fault => exact hnothing
    | ok _ =>
      refine (h.journal.observeAll_fst h.setup (h.batch count).2).trans ?_
      rw [takeWhile_batch]
      rfl
  | tick =>
    have hticked : (h.serve files .tick).1.journal =
        if h.machine.tick.2 then h.journal.hear h.setup h.machine.pc else h.journal := rfl
    rw [hticked, told, noted]
    cases h.machine.tick.2 with
    | true => rfl
    | false => exact hnothing
  | press key | release key | setKeys flags =>
    obtain ⟨m, hm⟩ := h.exists_withMachine_eq _
    exact (congrArg journal hm).trans hnothing
  | reset | consume | peek | view => exact hnothing

end Host

end ChipEight
