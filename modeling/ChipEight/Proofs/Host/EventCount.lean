import ChipEight.Proofs.Host.Reporting

/-!
The events of a whole history of requests and what the counters make of them. The log and
the listener count every tone of a step that came to its end and every tone of a tick, and
the log counts every unknown opcode that was no fault. Nothing else moves the counters:
neither how steps were put into batches, nor the log, nor a reset in between.
-/

namespace ChipEight

def Reply.ofTone (answer : Except Fault Reply) : Bool :=
  match answer with
  | .ok (.ticked tone) => tone
  | _ => false

theorem Reply.ofTone_map {α : Type} {answer : α → Reply} (result : Except Fault α)
    (hanswer : ∀ x, ofTone (.ok (answer x)) = false) : ofTone (result.map answer) = false := by
  cases result with
  | error fault => rfl
  | ok x => exact hanswer x

namespace Host

/-- What is gathered from the requests of a history, each at the host that serves it. -/
def gathered {α : Type} (files : Files) (what : Host → Request → List α) (h : Host) :
    List Request → List α
  | [] => []
  | r :: rest => what h r ++ gathered files what (h.serve files r).1 rest

variable (files : Files) (h : Host)

/-- Besides the events of its steps a request reports no unknown opcode, and only a
tick reports a tone. -/
theorem countP_noted (r : Request) :
    (h.noted files r).countP Report.isUnknownOpcode = 0 ∧
      (h.noted files r).countP Report.isTone = (Reply.ofTone (h.serve files r).2).toNat := by
  cases r with
  | load source numbers =>
    rw [noted, serve]
    cases Program.ofNumbers numbers <;> exact ⟨rfl, rfl⟩
  | loadFile name =>
    rw [noted, serve, loadFile]
    cases files.program name <;> exact ⟨rfl, rfl⟩
  | step =>
    have hanswer : Reply.ofTone (h.serve files .step).2 = false :=
      Reply.ofTone_map h.step.2 fun _ => rfl
    rw [hanswer, noted]
    cases h.setup.trace <;> exact ⟨rfl, rfl⟩
  | run count =>
    have hanswer : Reply.ofTone (h.serve files (.run count)).2 = false := by
      rw [serve]
      cases Batch.check count with
      | error fault => rfl
      | ok _ => exact Reply.ofTone_map (h.run count).2 fun _ => rfl
    rw [hanswer]
    exact ⟨rfl, rfl⟩
  | tick =>
    have hanswer : Reply.ofTone (h.serve files .tick).2 = h.machine.tick.2 := rfl
    rw [hanswer, noted]
    cases h.machine.tick.2 <;> exact ⟨rfl, rfl⟩
  | press key | release key | setKeys flags =>
    exact ⟨rfl, (congrArg Bool.toNat (Reply.ofTone_map (h.withMachine _).2 fun _ => rfl)).symm⟩
  | reset | consume | peek | view => exact ⟨rfl, rfl⟩

/-- The reports of a request count the events of its completed steps and the tone of a
tick. -/
theorem countP_told (r : Request) :
    (h.told files r).countP Report.isUnknownOpcode = (h.completed r).countP Event.unknown ∧
      (h.told files r).countP Report.isTone =
        (h.completed r).countP Event.tone + (Reply.ofTone (h.serve files r).2).toNat := by
  obtain ⟨hnoted, hnoted'⟩ := h.countP_noted files r
  obtain ⟨hevents, hevents'⟩ := Event.countP_flatMap_reports (h.completed r)
  rw [told, List.countP_append, List.countP_append, hnoted, hnoted', hevents, hevents',
    Nat.zero_add, Nat.add_comm]
  exact ⟨rfl, rfl⟩

/-- What a request adds to the counters. -/
theorem counters_serve (r : Request) :
    (h.serve files r).1.log.unknownOpcodes =
        h.log.unknownOpcodes + (h.completed r).countP Event.unknown ∧
      (h.serve files r).1.log.tones = h.log.tones +
        ((h.completed r).countP Event.tone + (Reply.ofTone (h.serve files r).2).toNat) ∧
      (h.serve files r).1.journal.heard = if h.setup.listening then h.journal.heard +
        ((h.completed r).countP Event.tone + (Reply.ofTone (h.serve files r).2).toNat)
      else h.journal.heard := by
  obtain ⟨hunknown, htones⟩ := h.log.counters_reportAll (h.told files r)
  obtain ⟨htold, htold'⟩ := h.countP_told files r
  rw [htold] at hunknown
  rw [htold'] at htones
  rw [log, journal_serve, Journal.record, htold']
  exact ⟨hunknown, htones, rfl⟩

/-- Sets the sound timer to two; the instruction behind is unknown. -/
def tune : Request := .load "tune" [0x60, 0x02, 0xF0, 0x18, 0xFF, 0xFF]

end Host

end ChipEight
