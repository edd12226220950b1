import ChipEight.Proofs.Host.EventCount
import ChipEight.Proofs.Host.Writing

/-!
What requests leave that fail. A request to write leaves nothing. A step or a batch of a
strict host that comes to an unknown opcode leaves the machine and the counter behind that
step, where a lenient host would have them that was asked for as many steps and no more. So
a strict host goes through the same machines as a lenient one whose batches are cut.
-/

namespace ChipEight

def Request.asked : Request → Nat
  | .step => 1
  | .run count => count
  | _ => 0

namespace Host

variable (files : Files) (h : Host)

def cut (r : Request) : Request :=
  match r with
  | .run count => .run (h.made (.run count)).length
  | r => r

/-- A host that never stops and that is otherwise as far as another one. -/
structure Lenient (k : Host) : Prop where
  strict : k.setup.strict = false
  coupled : k.setup.coupled = h.setup.coupled
  key : k.key = h.key
  machine : k.machine = h.machine
  steps : k.steps = h.steps

/-- What a step or a batch leaves that came to an unknown opcode: the machine and the
counter behind the step that met it, which is the first that did and one of those that were
asked for. -/
structure StoppedAt (r : Request) (opcode address : Int) (after : Host) : Prop where
  strict : h.setup.strict = true
  within : (h.made r).length ≤ r.asked
  last : ∃ before e, (h.machine.run (h.made r).length).2 = before ++ [e] ∧
    (∀ x ∈ before, x.unknown = false) ∧ e.unknown = true ∧
    opcode = e.instruction.toNat ∧ address = e.address.toNat
  machine : after.machine = (h.machine.run (h.made r).length).1
  steps : after.steps = h.steps + (h.made r).length

theorem length_batch_le (n : Nat) : (h.batch n).2.length ≤ n := by
  induction n generalizing h with
  | zero => rw [batch_zero]; rfl
  | succ n ih =>
    cases hstop : h.machine.step.2.unknown && h.setup.strict with
    | true =>
      rw [h.batch_succ_of_stop n hstop]
      exact Nat.succ_le_succ (Nat.zero_le n)
    | false =>
      rw [h.batch_succ n hstop]
      exact Nat.succ_le_succ (ih h.advance)

/-- A batch leaves the machine of the run of the steps that it makes, and counts them. -/
theorem served_run (n : Nat) :
    (h.serve files (.run n)).1.machine = (h.machine.run (h.made (.run n)).length).1 ∧
      (h.serve files (.run n)).1.steps = h.steps + (h.made (.run n)).length := by
  rw [serve, made]
  cases Batch.check n with
  | error fault => exact ⟨rfl, rfl⟩
  | ok _ => exact ⟨congrArg Prod.fst (h.batch_eq_run_length n), rfl⟩

theorem length_made_run_le (n : Nat) : (h.made (.run n)).length ≤ n := by
  rw [made]
  cases Batch.check n with
  | error fault => exact Nat.zero_le n
  | ok _ => exact h.length_batch_le n

theorem check_length_made (n : Nat) : Batch.check (h.made (.run n)).length = .ok () := by
  rw [Batch.check_eq_ok_iff]
  cases hcheck : Batch.check n with
  | error fault =>
    rw [made, hcheck]
    exact Nat.pow_pos (by decide)
  | ok _ => exact Nat.lt_of_le_of_lt (h.length_made_run_le n) ((Batch.check_eq_ok_iff n).1 hcheck)

theorem made_of_lenient (hlenient : h.setup.strict = false) {n : Nat}
    (hcheck : Batch.check n = .ok ()) : h.made (.run n) = (h.machine.run n).2 := by
  rw [made, hcheck, batch, hlenient]
  rfl

theorem stoppedAt_of_find? {r : Request} {e : Event} {after : Host}
    (hwithin : (h.made r).length ≤ r.asked)
    (hlast : ∃ before, h.made r = before ++ [e] ∧ ∀ x ∈ before, h.setup.stops x = false)
    (hstop : h.setup.stops e = true)
    (hmachine : after.machine = (h.machine.run (h.made r).length).1)
    (hsteps : after.steps = h.steps + (h.made r).length) :
    h.StoppedAt r e.instruction.toNat e.address.toNat after := by
  rw [HostSetup.stops, Bool.and_eq_true] at hstop
  obtain ⟨hunknown, hstrict⟩ := hstop
  obtain ⟨before, hconcat, hgo⟩ := hlast
  rw [h.made_eq_run r] at hconcat
  refine ⟨hstrict, hwithin, ⟨before, e, hconcat, ?_, hunknown, rfl, rfl⟩, hmachine, hsteps⟩
  intro x hx
  have hpass := hgo x hx
  rw [HostSetup.stops, hstrict, Bool.and_true] at hpass
  exact hpass

theorem stoppedAt_of_step {opcode address : Int}
    (hfault : (h.serve files .step).2 = .error (.unknownOpcode opcode address)) :
    h.StoppedAt .step opcode address (h.serve files .step).1 := by
  rw [serve, step_eq_told] at hfault
  cases hstop : h.setup.stops h.machine.step.2 with
  | false =>
    rw [hstop] at hfault
    cases hfault
  | true =>
    rw [hstop] at hfault
    cases hfault
    exact h.stoppedAt_of_find? (Nat.le_refl 1)
      ⟨[], rfl, fun x hx => absurd hx List.not_mem_nil⟩ hstop rfl rfl

theorem check_ne_unknownOpcode (n : Nat) (opcode address : Int) :
    Batch.check n ≠ .error (.unknownOpcode opcode address) := by
  unfold Batch.check
  split
  · exact fun h => nomatch h
  · split <;> exact fun h => nomatch h

theorem stoppedAt_of_run {n : Nat} {opcode address : Int}
    (hfault : (h.serve files (.run n)).2 = .error (.unknownOpcode opcode address)) :
    h.StoppedAt (.run n) opcode address (h.serve files (.run n)).1 := by
  cases hcheck : Batch.check n with
  | error fault =>
    rw [serve, hcheck] at hfault
    cases hfault
    exact absurd hcheck (check_ne_unknownOpcode n opcode address)
  | ok _ =>
    have hmade : h.made (.run n) = (h.batch n).2 := by rw [made, hcheck]
    obtain ⟨hmachine, hsteps⟩ := h.served_run files n
    rw [h.answer_run files hcheck, hmade] at hfault
    cases hfound : (h.batch n).2.find? h.setup.stops with
    | none =>
      rw [hfound] at hfault
      cases hfault
    | some e =>
      have hlast := h.exists_batch_eq_concat hfound
      rw [← hmade] at hlast
      rw [hfound] at hfault
      cases hfault
      exact h.stoppedAt_of_find? (h.length_made_run_le n) hlast (List.find?_some hfound)
        hmachine hsteps

section

variable {h} {k : Host}

theorem Lenient.of_serve (hlenient : h.Lenient k) {r q : Request}
    (hmachine : (k.serve files q).1.machine = (h.serve files r).1.machine)
    (hsteps : (k.serve files q).1.steps = (h.serve files r).1.steps) :
    (h.serve files r).1.Lenient (k.serve files q).1 where
  strict := by rw [setup_serve, hlenient.strict]
  coupled := by rw [setup_serve, setup_serve, hlenient.coupled]
  key := by rw [key_serve, key_serve, hlenient.key]
  machine := hmachine
  steps := hsteps

theorem Lenient.serve_run (hlenient : h.Lenient k) (n : Nat) :
    (h.serve files (.run n)).1.Lenient (k.serve files (h.cut (.run n))).1 := by
  have hmade := k.made_of_lenient hlenient.strict (h.check_length_made n)
  have hlength : (k.made (.run (h.made (.run n)).length)).length = (h.made (.run n)).length := by
    rw [hmade, Machine.length_run]
  obtain ⟨hmachine, hsteps⟩ := h.served_run files n
  obtain ⟨hmachine', hsteps'⟩ := k.served_run files (h.made (.run n)).length
  apply hlenient.of_serve files
  · rw [cut, hmachine, hmachine', hlength, hlenient.machine]
  · rw [cut, hsteps, hsteps', hlength, hlenient.steps]

theorem Lenient.serve_withMachine (hlenient : h.Lenient k) {r : Request}
    (change : Machine → Except Fault Machine)
    (hserve : ∀ j : Host, j.serve files r =
      (j.withMachine (change j.machine)).mapResult fun _ => .done) :
    (h.serve files r).1.Lenient (k.serve files r).1 := by
  apply hlenient.of_serve files
  · rw [hserve, hserve, hlenient.machine]
    cases change h.machine with
    | error fault => exact hlenient.machine
    | ok m => rfl
  · rw [hserve, hserve, hlenient.machine]
    cases change h.machine <;> exact hlenient.steps

theorem Lenient.serve_loading (hlenient : h.Lenient k) {r : Request} (source : String)
    (program : Except Fault Program)
    (hserve : ∀ j : Host, (j.serve files r).1 =
      match program with
      | .ok p => j.load source p
      | .error _ => j) :
    (h.serve files r).1.Lenient (k.serve files r).1 := by
  apply hlenient.of_serve files
  · rw [hserve, hserve]
    cases program with
    | error fault => exact hlenient.machine
    | ok p => exact congrArg (fun m => m.load p) hlenient.machine
  · rw [hserve, hserve]
    cases program <;> exact hlenient.steps

/-- One request, cut for the lenient host, keeps the two together. -/
theorem Lenient.serve (hlenient : h.Lenient k) (r : Request) :
    (h.serve files r).1.Lenient (k.serve files (h.cut r)).1 := by
  cases r with
  | run n => exact hlenient.serve_run files n
  | press key =>
    exact hlenient.serve_withMachine files (fun m => m.setKey key true) fun _ => rfl
  | release key =>
    exact hlenient.serve_withMachine files (fun m => m.setKey key false) fun _ => rfl
  | setKeys flags =>
    exact hlenient.serve_withMachine files (fun m => m.setKeys flags) fun _ => rfl
  | load source numbers =>
    refine hlenient.serve_loading files source (Program.ofNumbers numbers) fun j => ?_
    rw [Host.serve]
    cases Program.ofNumbers numbers <;> rfl
  | loadFile name =>
    refine hlenient.serve_loading files name (files.program name) fun j => ?_
    rw [Host.serve, loadFile]
    cases files.program name <;> rfl
  | reset =>
    exact hlenient.of_serve files (congrArg₂ Machine.fresh hlenient.key hlenient.coupled) rfl
  | step =>
    exact hlenient.of_serve files (congrArg (fun m => m.step.1) hlenient.machine)
      (congrArg Nat.succ hlenient.steps)
  | tick =>
    exact hlenient.of_serve files (congrArg (fun m => m.tick.1) hlenient.machine) hlenient.steps
  | consume =>
    exact hlenient.of_serve files (congrArg Machine.markShown hlenient.machine) hlenient.steps
  | peek | view => exact hlenient.of_serve files hlenient.machine hlenient.steps

/-- A strict host and a lenient one whose batches are cut where the strict one stopped have
the same machine and the same counter all along. -/
theorem Lenient.serveAll (hlenient : h.Lenient k) (requests : List Request) :
    (h.serveAll files requests).1.Lenient
      (k.serveAll files (gathered files (fun h r => [h.cut r]) h requests)).1 := by
  induction requests generalizing h k with
  | nil => exact hlenient
  | cons r rest ih => exact ih (hlenient.serve files r)

end

/-- A request to write is refused without a trace, by its arguments and the files alone, or
done as a whole; the size of a program is judged first. A step or a batch that is a fault
for an unknown opcode leaves the machine and the counter behind the step that met it, the
first one that did. So a host goes together with a lenient one through every history, if
the batches of that one are cut where the host stopped. -/
theorem requests_fail_cleanly :
    (∀ r : Request, r.writes = true → h.Atomic files r) ∧
    (∀ (source : String) (numbers : List Int), 3584 < numbers.length →
      h.serve files (.load source numbers) = (h, .error (.programTooLarge numbers.length 3584))) ∧
    (∀ (r : Request) (opcode address : Int), r = .step ∨ (∃ n, r = .run n) →
      (h.serve files r).2 = .error (.unknownOpcode opcode address) →
      h.StoppedAt r opcode address (h.serve files r).1) ∧
    ∀ k : Host, h.Lenient k → ∀ requests : List Request,
      (h.serveAll files requests).1.Lenient
        (k.serveAll files (gathered files (fun h r => [h.cut r]) h requests)).1 := by
  refine ⟨fun r hr => h.atomic_of_writes files hr,
    fun source _ hlarge => h.serve_load_of_tooLarge files source hlarge, ?_,
    fun k hlenient => hlenient.serveAll files⟩
  rintro r opcode address (rfl | ⟨n, rfl⟩) hfault
  · exact h.stoppedAt_of_step files hfault
  · exact h.stoppedAt_of_run files hfault

def noisy (strict : Bool) : Host :=
  { unasked { strict := strict } ⟨0, 0⟩ {} with
    machine := (Machine.fresh ⟨0, 0⟩ true).load ⟨[0x60, 0x07, 0xFF, 0xFF], by decide⟩ }

theorem lenient_noisy : (noisy true).Lenient (noisy false) := ⟨rfl, rfl, rfl, rfl, rfl⟩

/-- A key that there is not is refused, and of a batch only two steps are made. -/
theorem requests_fail_cleanly_noisy :
    (∃ fault, (noisy true).serve .empty (.press (-1)) = (noisy true, .error fault)) ∧
    (noisy true).StoppedAt (.run 9) 0xFFFF 0x202 ((noisy true).serve .empty (.run 9)).1 ∧
    ((noisy true).serveAll .empty [.loadFile "none", .run 9, .press 3]).1.machine =
      ((noisy false).serveAll .empty [.loadFile "none", .run 2, .press 3]).1.machine := by
  obtain ⟨hatomic, -, hstopped, htogether⟩ := (noisy true).requests_fail_cleanly .empty
  have hcut : gathered .empty (fun h r => [h.cut r]) (noisy true)
      [.loadFile "none", .run 9, .press 3] = [.loadFile "none", .run 2, .press 3] := by
    decide +kernel
  have hhistory := htogether (noisy false) lenient_noisy [.loadFile "none", .run 9, .press 3]
  rw [hcut] at hhistory
  refine ⟨?_, hstopped (.run 9) 0xFFFF 0x202 (.inr ⟨9, rfl⟩) (by decide +kernel),
    hhistory.machine.symm⟩
  obtain ⟨-, hrefused⟩ | ⟨hfine, -⟩ := hatomic (.press (-1)) rfl
  · exact hrefused
  · exact absurd (.inl (by decide)) hfine

end Host

end ChipEight
