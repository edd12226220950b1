import ChipEight.Proofs.Host.Repaint
import ChipEight.Proofs.Host.Stopping
import ChipEight.Proofs.Machine.Influence

/-!
Looking on. A log prints what it is told, and a trace tells it more, but a host does not
hang on either: two hosts that differ only in these go through the same machines and answer
alike. Nor does it hang on how often it was looked at. To take the screen clears the flag
that it has changed, and nothing but a look at the flag itself can tell that later.
-/

namespace ChipEight

theorem Machine.eq_of_markShown_eq {m k : Machine} (h : m.markShown = k.markShown)
    (hdirty : m.dirty = k.dirty) : m = k :=
  calc m = { m.markShown with dirty := m.dirty } := rfl
    _ = { k.markShown with dirty := k.dirty } := by rw [h, hdirty]
    _ = k := rfl

theorem Machine.setKey_markShown (m : Machine) (key : Int) (pressed : Bool) :
    m.markShown.setKey key pressed = (m.setKey key pressed).map markShown := by
  rw [setKey, setKey]
  cases Keypad.keyOf key <;> rfl

theorem Machine.setKeys_markShown (m : Machine) (flags : List Bool) :
    m.markShown.setKeys flags = (m.setKeys flags).map markShown := by
  rw [setKeys, setKeys]
  cases Keypad.ofFlags flags <;> rfl

def Request.looks : Request → Bool
  | .consume | .peek _ | .view => true
  | _ => false

/-- What there is to a host besides what its log prints, whether it traces its steps, and
whether its screen was shown. -/
@[ext]
structure Gist where
  setup : HostSetup
  key : RandomKey
  machine : Machine
  steps : Nat
  heard : Nat
  unknownOpcodes : Nat
  tones : Nat

namespace Host

def gist (h : Host) : Gist where
  setup := { h.setup with trace := false }
  key := h.key
  machine := h.machine.markShown
  steps := h.steps
  heard := h.journal.heard
  unknownOpcodes := h.log.unknownOpcodes
  tones := h.log.tones

def steadyView (h : Host) : View := { h.view with dirty := false }

variable (files : Files)

theorem gist_serve_of_looks (h : Host) {r : Request} (hlooks : r.looks = true) :
    (h.serve files r).1.gist = h.gist := by
  cases r with
  | consume | peek | view => rfl
  | _ => cases hlooks

section

variable {h k : Host} (hgist : h.gist = k.gist)

include hgist

theorem stops_eq_of_gist_eq : h.setup.stops = k.setup.stops := by
  have hstrict : h.setup.strict = k.setup.strict := congrArg (fun g => g.setup.strict) hgist
  unfold HostSetup.stops
  rw [hstrict]

theorem made_eq_of_gist_eq (r : Request) : h.made r = k.made r := by
  have hstrict : h.setup.strict = k.setup.strict := congrArg (fun g => g.setup.strict) hgist
  have hevents (n : Nat) : (h.machine.run n).2 = (k.machine.run n).2 :=
    (Channel.run_of_markShown_eq (congrArg Gist.machine hgist) n).2
  cases r with
  | step => exact hevents 1
  | run n =>
    rw [made, made]
    cases Batch.check n with
    | error fault => rfl
    | ok _ =>
      simp only [batch, hstrict, hevents n]
      split
      · split <;> exact hevents _
      · exact hevents n
  | _ => rfl

/-- A change of the machine that does not hang on the flag of the screen is made or refused
alike. -/
theorem withMachine_of_gist_eq (change : Machine → Except Fault Machine)
    (hchange : ∀ m : Machine, change m.markShown = (change m).map Machine.markShown) :
    ((h.withMachine (change h.machine)).1.machine.markShown =
        (k.withMachine (change k.machine)).1.machine.markShown ∧
      (h.withMachine (change h.machine)).1.steps = (k.withMachine (change k.machine)).1.steps) ∧
      (h.withMachine (change h.machine)).2 = (k.withMachine (change k.machine)).2 := by
  have hmachine : h.machine.markShown = k.machine.markShown := congrArg Gist.machine hgist
  have hsteps : h.steps = k.steps := congrArg Gist.steps hgist
  have hchanged : (change h.machine).map Machine.markShown =
      (change k.machine).map Machine.markShown := by
    rw [← hchange, ← hchange, hmachine]
  cases hcase : change h.machine with
  | error fault =>
    cases hcase' : change k.machine with
    | error fault' =>
      rw [hcase, hcase'] at hchanged
      exact ⟨⟨hmachine, hsteps⟩, congrArg Except.error (Except.error.inj hchanged)⟩
    | ok m =>
      rw [hcase, hcase'] at hchanged
      cases hchanged
  | ok m =>
    cases hcase' : change k.machine with
    | error fault =>
      rw [hcase, hcase'] at hchanged
      cases hchanged
    | ok m' =>
      rw [hcase, hcase'] at hchanged
      exact ⟨⟨Except.ok.inj hchanged, hsteps⟩, rfl⟩

/-- The machine and the counter that a request leaves follow from what there is to the host,
and so does the answer, unless it is a view, which tells whether the screen was shown. -/
theorem serve_of_gist_eq (r : Request) :
    ((h.serve files r).1.machine.markShown = (k.serve files r).1.machine.markShown ∧
      (h.serve files r).1.steps = (k.serve files r).1.steps) ∧
      (r ≠ .view → (h.serve files r).2 = (k.serve files r).2) := by
  have hmachine : h.machine.markShown = k.machine.markShown := congrArg Gist.machine hgist
  have hsteps : h.steps = k.steps := congrArg Gist.steps hgist
  have hmade := made_eq_of_gist_eq hgist
  have hstops := stops_eq_of_gist_eq hgist
  cases r with
  | reset =>
    have hkey : h.key = k.key := congrArg Gist.key hgist
    have hcoupled : h.setup.coupled = k.setup.coupled :=
      congrArg (fun g => g.setup.coupled) hgist
    rw [serve, serve, reset, reset, hkey, hcoupled]
    exact ⟨⟨rfl, rfl⟩, fun _ => rfl⟩
  | load source numbers =>
    rw [serve, serve]
    cases Program.ofNumbers numbers with
    | error fault => exact ⟨⟨hmachine, hsteps⟩, fun _ => rfl⟩
    | ok p => exact ⟨⟨congrArg (fun m => m.load p) hmachine, hsteps⟩, fun _ => rfl⟩
  | loadFile name =>
    rw [serve, serve, loadFile, loadFile]
    cases files.program name with
    | error fault => exact ⟨⟨hmachine, hsteps⟩, fun _ => rfl⟩
    | ok p => exact ⟨⟨congrArg (fun m => m.load p) hmachine, hsteps⟩, fun _ => rfl⟩
  | step =>
    refine ⟨⟨(Channel.run_of_markShown_eq hmachine 1).1, congrArg Nat.succ hsteps⟩, fun _ => ?_⟩
    have hevent : h.machine.step.2 = k.machine.step.2 := List.head_eq_of_cons_eq (hmade .step)
    rw [serve_step_eq, serve_step_eq, HostSetup.answer, HostSetup.answer, hevent, hstops]
  | run n =>
    obtain ⟨hserved, hcounted⟩ := h.served_run files n
    obtain ⟨hserved', hcounted'⟩ := k.served_run files n
    rw [hserved, hserved', hcounted, hcounted', hmade, hsteps]
    refine ⟨⟨(Channel.run_of_markShown_eq hmachine _).1, rfl⟩, fun _ => ?_⟩
    cases hcheck : Batch.check n with
    | error fault => rw [serve, serve, hcheck]
    | ok _ => rw [h.answer_run files hcheck, k.answer_run files hcheck, hmade, hstops]
  | tick =>
    have htone := congrArg (fun m => m.tick.2) hmachine
    exact ⟨⟨congrArg (fun m => m.tick.1) hmachine, hsteps⟩,
      fun _ => congrArg (fun tone => Except.ok (Reply.ticked tone)) htone⟩
  | press key =>
    obtain ⟨hleft, hanswer⟩ := withMachine_of_gist_eq hgist (Machine.setKey · key true)
      fun m => m.setKey_markShown key true
    exact ⟨hleft, fun _ => congrArg (Except.map fun _ => Reply.done) hanswer⟩
  | release key =>
    obtain ⟨hleft, hanswer⟩ := withMachine_of_gist_eq hgist (Machine.setKey · key false)
      fun m => m.setKey_markShown key false
    exact ⟨hleft, fun _ => congrArg (Except.map fun _ => Reply.done) hanswer⟩
  | setKeys flags =>
    obtain ⟨hleft, hanswer⟩ := withMachine_of_gist_eq hgist (Machine.setKeys · flags)
      fun m => m.setKeys_markShown flags
    exact ⟨hleft, fun _ => congrArg (Except.map fun _ => Reply.done) hanswer⟩
  | consume =>
    have hscreen := congrArg Machine.screen hmachine
    exact ⟨⟨hmachine, hsteps⟩,
      fun _ => congrArg (fun screen => Except.ok (Reply.shown screen)) hscreen⟩
  | peek address =>
    have hword := congrArg (fun m => m.memory.word (address % 4096).toNat) hmachine
    exact ⟨⟨hmachine, hsteps⟩, fun _ => congrArg (fun word => Except.ok (Reply.word word)) hword⟩
  | view => exact ⟨⟨hmachine, hsteps⟩, fun hview => absurd rfl hview⟩

/-- What there is to a host after a request follows from what there was before. -/
theorem gist_serve_of_gist_eq (r : Request) :
    (h.serve files r).1.gist = (k.serve files r).1.gist := by
  obtain ⟨⟨hmachine, hsteps⟩, hanswer⟩ := serve_of_gist_eq files hgist r
  obtain ⟨hunknown, htones, hheard⟩ := h.counters_serve files r
  obtain ⟨hunknown', htones', hheard'⟩ := k.counters_serve files r
  have hcompleted : h.completed r = k.completed r := by
    rw [completed, completed, made_eq_of_gist_eq hgist, stops_eq_of_gist_eq hgist]
  have htone : Reply.ofTone (h.serve files r).2 = Reply.ofTone (k.serve files r).2 := by
    by_cases hr : r = .view
    · rw [hr]
      rfl
    · rw [hanswer hr]
  have hlistening : h.setup.listening = k.setup.listening :=
    congrArg (fun g => g.setup.listening) hgist
  have hbefore : h.journal.heard = k.journal.heard := congrArg Gist.heard hgist
  have hbefore' : h.log.tones = k.log.tones := congrArg Gist.tones hgist
  have hbefore'' : h.log.unknownOpcodes = k.log.unknownOpcodes :=
    congrArg Gist.unknownOpcodes hgist
  have hsetup (j : Host) : (j.serve files r).1.gist.setup = j.gist.setup := by
    simp only [gist, setup_serve]
  have hkey (j : Host) : (j.serve files r).1.gist.key = j.gist.key := j.key_serve files r
  refine Gist.ext ?_ ?_ hmachine hsteps ?_ ?_ ?_
  · rw [hsetup, hsetup, hgist]
  · rw [hkey, hkey, hgist]
  · exact hheard.trans (Eq.trans (by rw [hcompleted, htone, hlistening, hbefore]) hheard'.symm)
  · exact hunknown.trans (Eq.trans (by rw [hcompleted, hbefore'']) hunknown'.symm)
  · exact htones.trans (Eq.trans (by rw [hcompleted, htone, hbefore']) htones'.symm)

theorem steadyView_eq_of_gist_eq : h.steadyView = k.steadyView := by
  have hview (j : Host) : j.steadyView = { j with machine := j.gist.machine }.view := rfl
  rw [hview, hview, hgist]
  rfl

/-- With the flag of the screen the whole machine and all answers follow. -/
theorem serve_of_machine_eq (hmachine : h.machine = k.machine) (r : Request) :
    (h.serve files r).1.machine = (k.serve files r).1.machine ∧
      (h.serve files r).2 = (k.serve files r).2 := by
  obtain ⟨⟨hshown, -⟩, hanswer⟩ := serve_of_gist_eq files hgist r
  have hredraws : h.Redraws r ↔ k.Redraws r := by
    rw [Redraws, Redraws, made_eq_of_gist_eq hgist]
  refine ⟨Machine.eq_of_markShown_eq hshown (Bool.eq_iff_iff.2 ?_), ?_⟩
  · rw [dirty_serve_iff, dirty_serve_iff, hmachine, hredraws]
  · by_cases hr : r = .view
    · subst hr
      rw [serve, serve, view, view, hmachine]
    · exact hanswer hr

theorem serveAll_of_machine_eq (hmachine : h.machine = k.machine) (requests : List Request) :
    (h.serveAll files requests).1.gist = (k.serveAll files requests).1.gist ∧
      (h.serveAll files requests).1.machine = (k.serveAll files requests).1.machine ∧
      (h.serveAll files requests).2 = (k.serveAll files requests).2 := by
  induction requests generalizing h k with
  | nil => exact ⟨hgist, hmachine, rfl⟩
  | cons r rest ih =>
    obtain ⟨hserved, hanswer⟩ := serve_of_machine_eq files hgist hmachine r
    obtain ⟨hrest, hlast, hanswers⟩ := ih (gist_serve_of_gist_eq files hgist r) hserved
    exact ⟨hrest, hlast, congrArg₂ List.cons hanswer hanswers⟩

/-- The requests that only look may be left out. -/
theorem gist_serveAll_filter (requests : List Request) :
    (h.serveAll files requests).1.gist =
      (k.serveAll files (requests.filter fun r => !r.looks)).1.gist := by
  induction requests generalizing h k with
  | nil => exact hgist
  | cons r rest ih =>
    rw [List.filter_cons]
    cases hlooks : r.looks with
    | true => exact ih ((gist_serve_of_looks files h hlooks).trans hgist)
    | false => exact ih (gist_serve_of_gist_eq files hgist r)

end

/-- Two hosts that differ at most in what their logs print and in whether they trace their
steps stay so whatever they are asked for: machines, counters and answers are the same, faults
included. Where one is also looked at, and its screen taken, any number of times in between,
they come to the same but for the flag of the screen, and each request that follows is
answered alike but for this flag in a view. Hosts that are created with other logs and with
or without a trace are such hosts. -/
theorem observation_harmless {h k : Host} (hgist : h.gist = k.gist)
    (hmachine : h.machine = k.machine) :
    (∀ requests,
      (h.serveAll files requests).1.gist = (k.serveAll files requests).1.gist ∧
        (h.serveAll files requests).1.machine = (k.serveAll files requests).1.machine ∧
        (h.serveAll files requests).2 = (k.serveAll files requests).2) ∧
    (∀ requests requests' : List Request,
      (requests.filter fun r => !r.looks) = (requests'.filter fun r => !r.looks) →
      (h.serveAll files requests).1.gist = (k.serveAll files requests').1.gist ∧
        (h.serveAll files requests).1.steadyView = (k.serveAll files requests').1.steadyView ∧
        ∀ r, r ≠ .view → ((h.serveAll files requests).1.serve files r).2 =
          ((k.serveAll files requests').1.serve files r).2) ∧
    ∀ (setup : HostSetup) (trace trace' : Bool) (style style' : LogStyle) (clock clock' : Clock),
      (create { setup with trace := trace } (Log.create style clock)).map
          (fun host => (host.gist, host.machine)) =
        (create { setup with trace := trace' } (Log.create style' clock')).map
          fun host => (host.gist, host.machine) := by
  refine ⟨serveAll_of_machine_eq files hgist hmachine, ?_, ?_⟩
  · intro requests requests' hdeeds
    have hafter : (h.serveAll files requests).1.gist = (k.serveAll files requests').1.gist := by
      rw [gist_serveAll_filter files hgist requests, hdeeds]
      exact (gist_serveAll_filter files rfl requests').symm
    exact ⟨hafter, steadyView_eq_of_gist_eq hafter,
      fun r => (serve_of_gist_eq files hafter r).2⟩
  · intro setup trace trace' style style' clock clock'
    rw [create, create]
    cases RandomKey.ofSeed setup.seed <;> rfl

def attended (trace : Bool) (threshold : String) : Host :=
  unasked { strict := true, listening := true, trace := trace } ⟨0, 0⟩ { threshold := threshold }

/-- Both play the tune up to its fault, and one of them is watched at that. -/
theorem observation_harmless_tune :
    (attended false "ERROR").gist = (attended true "DEBUG").gist ∧
      (attended false "ERROR").machine = (attended true "DEBUG").machine ∧
      ((attended true "DEBUG").serveAll .empty
        [tune, .step, .consume, .step, .peek (-1), .view, .tick]).1.gist.heard = 1 ∧
      (((attended true "DEBUG").serveAll .empty
        [tune, .step, .consume, .step, .peek (-1), .view, .tick]).1.serve .empty .step).2 =
        .error (.unknownOpcode 0xFFFF 0x204) := by
  obtain ⟨-, hwatched, -⟩ := observation_harmless .empty (h := attended false "ERROR")
    (k := attended true "DEBUG") rfl rfl
  obtain ⟨hgist, -, hanswers⟩ := hwatched [tune, .step, .step, .tick]
    [tune, .step, .consume, .step, .peek (-1), .view, .tick] rfl
  refine ⟨rfl, rfl, ?_, ?_⟩
  · rw [← hgist]
    decide +kernel
  · rw [← hanswers .step (by decide)]
    decide +kernel

end Host

end ChipEight
