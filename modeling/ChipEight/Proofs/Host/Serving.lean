import ChipEight.Request

/-!
What requests do to the machine of a host. A request makes the steps of a run, which
may be a run of none, and around them it touches the memory, the timers, the keys and
the flag of the screen at most, unless it switches to a fresh machine. The key from
which the random stream starts stays with the host.
-/

namespace ChipEight

/-- Two machines that differ at most in what a host can change without a step. -/
def Machine.Attended (m k : Machine) : Prop :=
  k = { m with
    memory := k.memory
    delay := k.delay
    sound := k.sound
    keypad := k.keypad
    dirty := k.dirty }

namespace Host

/-- The events of the steps that a request makes. A strict batch makes none
behind its first unknown opcode, and a batch that cannot be counted makes none. -/
def made (h : Host) : Request → List Event
  | .step => [h.machine.step.2]
  | .run count =>
    match Batch.check count with
    | .ok () => (h.batch count).2
    | .error _ => []
  | _ => []

theorem create_ok {h : Host} {setup : HostSetup} {log : Log}
    (hcreate : create setup log = .ok h) :
    ∃ key, RandomKey.ofSeed setup.seed = .ok key ∧ h = fresh setup key log := by
  unfold create at hcreate
  cases hkey : RandomKey.ofSeed setup.seed with
  | error fault =>
    rw [hkey] at hcreate
    cases hcreate
  | ok key =>
    rw [hkey] at hcreate
    cases hcreate
    exact ⟨key, rfl, rfl⟩

/-- A host that was not asked for anything yet and whose clock stands still. -/
def unasked (setup : HostSetup) (key : RandomKey) (style : LogStyle) : Host :=
  fresh setup key (Log.create style (Clock.ofList []))

variable (files : Files) (h : Host)

/-- A batch is a run of as many steps as it has events. -/
theorem exists_batch_eq (n : Nat) : ∃ k, h.batch n = h.machine.run k := by
  simp only [batch]
  split
  · split
    · exact ⟨_, rfl⟩
    · exact ⟨n, rfl⟩
  · exact ⟨n, rfl⟩

theorem attended_withMachine {α : Type} (allowed : Except Fault α) (change : α → Machine)
    (hkeep : ∀ x, h.machine.Attended (change x) ∧ (change x).dirty = h.machine.dirty) :
    h.machine.Attended (h.withMachine (allowed.map change)).1.machine ∧
      (h.withMachine (allowed.map change)).1.machine.dirty = h.machine.dirty := by
  cases allowed with
  | error fault => exact ⟨rfl, rfl⟩
  | ok x => exact hkeep x

/-- A request that makes the steps of a run leaves the machine of that run, but for
what the host changes beside them. -/
theorem exists_serve_eq_run (r : Request) (hreset : r ≠ .reset) :
    ∃ n, h.made r = (h.machine.run n).2 ∧
      (h.machine.run n).1.Attended (h.serve files r).1.machine ∧
      (r ≠ .consume → (h.serve files r).1.machine.dirty = (h.machine.run n).1.dirty) := by
  cases r with
  | reset => exact absurd rfl hreset
  | consume => exact ⟨0, rfl, rfl, fun hconsume => absurd rfl hconsume⟩
  | step => exact ⟨1, rfl, rfl, fun _ => rfl⟩
  | run count =>
    cases hcheck : Batch.check count with
    | error fault =>
      refine ⟨0, ?_, ?_⟩
      · simp only [made, hcheck, Machine.run]
      · rw [serve, hcheck]
        exact ⟨rfl, fun _ => rfl⟩
    | ok _ =>
      obtain ⟨n, hn⟩ := h.exists_batch_eq count
      refine ⟨n, ?_, ?_⟩
      · simp only [made, hcheck, hn]
      · rw [serve, hcheck, ← hn]
        exact ⟨rfl, fun _ => rfl⟩
  | load source numbers =>
    refine ⟨0, rfl, ?_⟩
    rw [serve]
    cases Program.ofNumbers numbers with
    | error fault => exact ⟨rfl, fun _ => rfl⟩
    | ok p => exact ⟨rfl, fun _ => rfl⟩
  | loadFile name =>
    refine ⟨0, rfl, ?_⟩
    rw [serve, loadFile]
    cases files.program name with
    | error fault => exact ⟨rfl, fun _ => rfl⟩
    | ok p => exact ⟨rfl, fun _ => rfl⟩
  | press key | release key =>
    refine ⟨0, rfl, And.imp_right (fun hdirty _ => hdirty)
      (h.attended_withMachine (Keypad.keyOf key) _ ?_)⟩
    intro k
    exact ⟨rfl, rfl⟩
  | setKeys flags =>
    refine ⟨0, rfl, And.imp_right (fun hdirty _ => hdirty)
      (h.attended_withMachine (Keypad.ofFlags flags) _ ?_)⟩
    intro keypad
    exact ⟨rfl, rfl⟩
  | tick | peek | view => exact ⟨0, rfl, rfl, fun _ => rfl⟩

theorem batch_eq_run_length (n : Nat) : h.batch n = h.machine.run (h.batch n).2.length := by
  obtain ⟨k, hk⟩ := h.exists_batch_eq n
  have hlength : (h.batch n).2.length = k := by rw [hk, Machine.length_run]
  rw [hlength, hk]

/-- What a request makes are the steps of a run of the machine. -/
theorem made_eq_run (r : Request) : h.made r = (h.machine.run (h.made r).length).2 := by
  cases r with
  | run count =>
    rw [made]
    cases Batch.check count with
    | error fault => rfl
    | ok _ => exact congrArg Prod.snd (h.batch_eq_run_length count)
  | _ => rfl

theorem exists_withMachine_eq (result : Except Fault Machine) :
    ∃ m, (h.withMachine result).1 = { h with machine := m } := by
  cases result with
  | error fault => exact ⟨h.machine, rfl⟩
  | ok m => exact ⟨m, rfl⟩

theorem exists_serve_eq (r : Request) : ∃ machine steps journal,
    (h.serve files r).1 = { h with machine := machine, steps := steps, journal := journal } := by
  cases r with
  | load source numbers =>
    rw [serve]
    cases Program.ofNumbers numbers with
    | error fault => exact ⟨_, _, _, rfl⟩
    | ok p => exact ⟨_, _, _, rfl⟩
  | loadFile name =>
    rw [serve, loadFile]
    cases files.program name with
    | error fault => exact ⟨_, _, _, rfl⟩
    | ok p => exact ⟨_, _, _, rfl⟩
  | run count =>
    rw [serve]
    cases Batch.check count with
    | error fault => exact ⟨_, _, _, rfl⟩
    | ok _ => exact ⟨_, _, _, rfl⟩
  | press | release | setKeys =>
    obtain ⟨m, hm⟩ := h.exists_withMachine_eq _
    exact ⟨m, h.steps, h.journal, hm⟩
  | reset | step | tick | consume | peek | view => exact ⟨_, _, _, rfl⟩

theorem key_serve (r : Request) : (h.serve files r).1.key = h.key := by
  obtain ⟨machine, steps, journal, hserve⟩ := h.exists_serve_eq files r
  rw [hserve]

theorem setup_serve (r : Request) : (h.serve files r).1.setup = h.setup := by
  obtain ⟨machine, steps, journal, hserve⟩ := h.exists_serve_eq files r
  rw [hserve]

theorem serveAll_concat (requests : List Request) (r : Request) :
    h.serveAll files (requests ++ [r]) =
      (((h.serveAll files requests).1.serve files r).1,
        (h.serveAll files requests).2 ++ [((h.serveAll files requests).1.serve files r).2]) := by
  induction requests generalizing h with
  | nil => rfl
  | cons q rest ih => simp only [List.cons_append, serveAll, ih]

end Host

end ChipEight
