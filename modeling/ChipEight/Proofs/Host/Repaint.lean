import ChipEight.Proofs.Host.Serving
import ChipEight.Proofs.Machine.Footprint
import Mathlib.Data.List.Induction

/-!
When the screen of a host has to be painted again. The host is told so from the
moment its machine is fresh or draws until the host takes the screen, whatever
else it asks for in between and whether or not that is refused. As long as it is
not told so, the screen is still the one that it took last.
-/

namespace ChipEight

def Reply.shown? : Except Fault Reply → Option Screen
  | .ok (.shown screen) => some screen
  | _ => none

theorem Reply.shown?_mapResult {σ α : Type} (a : Attempt σ α) (f : α → Reply)
    (h : ∀ x, shown? (.ok (f x)) = none) : shown? (a.mapResult f).2 = none := by
  cases a with
  | mk s result =>
    cases result with
    | error fault => rfl
    | ok x => exact h x

def Reply.lastShown? (answers : List (Except Fault Reply)) : Option Screen :=
  (answers.filterMap shown?).getLast?

namespace Host

/-- A request gives the machine something new to show if it switches to a fresh
machine or makes a step that draws. -/
def Redraws (h : Host) (r : Request) : Prop :=
  r = .reset ∨ ∃ e ∈ h.made r, e.kind.Draws

/-- Since the screen was taken last, or since the beginning if it never was, the
host got a fresh machine or its machine drew. -/
def RepaintDue (files : Files) (h : Host) (requests : List Request) : Prop :=
  .consume ∉ requests ∨ ∃ before r after,
    requests = before ++ r :: after ∧ .consume ∉ after ∧ (h.serveAll files before).1.Redraws r

variable (files : Files) (h : Host)

/-- A request leaves the host with something to paint exactly if it is not the one
that takes the screen, and there was something before or it adds to it. -/
theorem dirty_serve_iff (r : Request) :
    (h.serve files r).1.machine.dirty = true ↔
      r ≠ .consume ∧ (h.machine.dirty = true ∨ h.Redraws r) := by
  by_cases hconsume : r = .consume
  · subst hconsume
    simp [serve, consume, Machine.markShown]
  · by_cases hreset : r = .reset
    · subst hreset
      simp [serve, reset, Machine.fresh, Redraws]
    · obtain ⟨n, hmade, -, hdirty⟩ := h.exists_serve_eq_run files r hreset
      rw [hdirty hconsume, Machine.dirty_run_iff, ← hmade]
      simp only [Redraws, hconsume, hreset, ne_eq, not_false_eq_true, true_and, false_or]

theorem screen_serve (r : Request) (hr : ¬ h.Redraws r) :
    (h.serve files r).1.machine.screen = h.machine.screen := by
  have hreset : r ≠ .reset := fun heq => hr (Or.inl heq)
  obtain ⟨n, hmade, hserved, -⟩ := h.exists_serve_eq_run files r hreset
  rw [hserved]
  apply (h.machine.screen_run n _).1
  intro e he hdraws
  exact hr (Or.inr ⟨e, hmade ▸ he, hdraws⟩)

theorem repaintDue_nil : h.RepaintDue files [] := Or.inl List.not_mem_nil

theorem not_redraws_consume : ¬ h.Redraws .consume := by
  intro hredraws
  rcases hredraws with hreset | ⟨e, he, -⟩
  · cases hreset
  · cases he

/-- One more request leaves a repaint due if it does not take the screen and one
was due before or has become due now. -/
theorem repaintDue_concat_iff (requests : List Request) (r : Request) :
    h.RepaintDue files (requests ++ [r]) ↔
      r ≠ .consume ∧ (h.RepaintDue files requests ∨ (h.serveAll files requests).1.Redraws r) := by
  constructor
  · intro hdue
    rcases hdue with hnone | ⟨before, q, after, hsplit, hafter, hdraws⟩
    · rw [List.mem_append, List.mem_singleton, not_or] at hnone
      exact ⟨fun heq => hnone.2 heq.symm, Or.inl (Or.inl hnone.1)⟩
    -- what made it due is the new request or was there before
    · cases after using List.reverseRecOn with
      | nil =>
        obtain ⟨rfl, heq⟩ := List.append_inj' hsplit rfl
        cases heq
        exact ⟨fun heq => not_redraws_consume _ (heq ▸ hdraws), Or.inr hdraws⟩
      | append_singleton after last =>
        rw [← List.cons_append, ← List.append_assoc] at hsplit
        obtain ⟨rfl, heq⟩ := List.append_inj' hsplit rfl
        cases heq
        rw [List.mem_append, List.mem_singleton, not_or] at hafter
        refine ⟨fun heq => hafter.2 heq.symm, Or.inl (Or.inr ?_)⟩
        exact ⟨before, q, after, rfl, hafter.1, hdraws⟩
  · intro hstep
    rcases hstep with ⟨hr, hdue | hdraws⟩
    · have hlast {qs : List Request} (hqs : .consume ∉ qs) : .consume ∉ qs ++ [r] := by
        rw [List.mem_append, List.mem_singleton, not_or]
        exact ⟨hqs, Ne.symm hr⟩
      rcases hdue with hnone | ⟨before, q, after, rfl, hafter, hdraws⟩
      · exact Or.inl (hlast hnone)
      · exact Or.inr ⟨before, q, after ++ [r], by simp, hlast hafter, hdraws⟩
    · exact Or.inr ⟨requests, r, [], rfl, List.not_mem_nil, hdraws⟩

/-- Only the request that takes the screen is answered by it. -/
theorem shown?_serve (r : Request) (hr : r ≠ .consume) :
    Reply.shown? (h.serve files r).2 = none := by
  cases r with
  | consume => exact absurd rfl hr
  | reset | tick | peek | view => rfl
  | load source numbers =>
    cases hload : Program.ofNumbers numbers with
    | ok p => simp only [serve, hload, Reply.shown?]
    | error fault => simp only [serve, hload, Reply.shown?]
  | run count =>
    cases hcheck : Batch.check count with
    | ok _ =>
      simp only [serve, hcheck]
      exact Reply.shown?_mapResult _ _ fun _ => rfl
    | error fault => simp only [serve, hcheck, Reply.shown?]
  | step | loadFile | press | release | setKeys => exact Reply.shown?_mapResult _ _ fun _ => rfl

theorem lastShown?_serveAll_concat_consume (requests : List Request) :
    Reply.lastShown? (h.serveAll files (requests ++ [.consume])).2 =
      some (h.serveAll files requests).1.machine.screen := by
  rw [serveAll_concat, Reply.lastShown?, List.filterMap_append]
  exact List.getLast?_concat

theorem lastShown?_serveAll_concat (requests : List Request) (r : Request) (hr : r ≠ .consume) :
    Reply.lastShown? (h.serveAll files (requests ++ [r])).2 =
      Reply.lastShown? (h.serveAll files requests).2 := by
  simp only [serveAll_concat, Reply.lastShown?, List.filterMap_append, List.filterMap_cons,
    shown?_serve files _ r hr, List.filterMap_nil, List.append_nil]

/-- From a host whose screen has changed on, the screen counts as changed exactly
if a repaint is due. -/
theorem dirty_serveAll_iff (hfresh : h.machine.dirty = true) (requests : List Request) :
    (h.serveAll files requests).1.machine.dirty = true ↔ h.RepaintDue files requests := by
  induction requests using List.reverseRecOn with
  | nil => exact iff_of_true hfresh (h.repaintDue_nil files)
  | append_singleton requests r ih =>
    rw [serveAll_concat, dirty_serve_iff, ih, repaintDue_concat_iff]

/-- A screen that does not count as changed is the one that was shown last. -/
theorem lastShown?_serveAll (hfresh : h.machine.dirty = true) (requests : List Request)
    (hclean : (h.serveAll files requests).1.machine.dirty = false) :
    Reply.lastShown? (h.serveAll files requests).2 =
      some (h.serveAll files requests).1.machine.screen := by
  induction requests using List.reverseRecOn with
  | nil => exact absurd (hfresh.symm.trans hclean) Bool.noConfusion
  | append_singleton requests r ih =>
    have hmachine : (h.serveAll files (requests ++ [r])).1 =
        ((h.serveAll files requests).1.serve files r).1 := by rw [serveAll_concat]
    rw [hmachine] at hclean ⊢
    by_cases hr : r = .consume
    · subst hr
      rw [lastShown?_serveAll_concat_consume]
      rfl
    · rw [← Bool.not_eq_true, dirty_serve_iff, not_and, not_or, Bool.not_eq_true] at hclean
      obtain ⟨hbefore, hidle⟩ := hclean hr
      rw [lastShown?_serveAll_concat _ _ _ _ hr, screen_serve _ _ _ hidle]
      exact ih hbefore

theorem dirty_create {setup : HostSetup} {log : Log} (hcreate : Host.create setup log = .ok h) :
    h.machine.dirty = true := by
  obtain ⟨key, -, rfl⟩ := create_ok hcreate
  rfl

/-- At every moment after a host was made the machine says that its screen has
changed exactly if a repaint is due, and if it does not say so the screen is the
one that was shown last. -/
theorem dirty_iff_repaintDue {setup : HostSetup} {log : Log}
    (hcreate : Host.create setup log = .ok h) (requests : List Request) :
    ((h.serveAll files requests).1.machine.dirty = true ↔ h.RepaintDue files requests) ∧
      ((h.serveAll files requests).1.machine.dirty = false →
        Reply.lastShown? (h.serveAll files requests).2 =
          some (h.serveAll files requests).1.machine.screen) :=
  ⟨h.dirty_serveAll_iff files (h.dirty_create hcreate) requests,
    h.lastShown?_serveAll files (h.dirty_create hcreate) requests⟩

def switchedOn : Host := unasked {} ⟨0, 0⟩ {}

/-- Clearing the screen makes a repaint due after the screen was taken; a key that
there is not does not. -/
theorem repaintDue_switchedOn :
    Host.create {} (Log.create {} (Clock.ofList [])) = .ok switchedOn ∧
      switchedOn.RepaintDue .empty [.consume, .load "clear" [0x00, 0xE0], .step] ∧
      Reply.lastShown? (switchedOn.serveAll .empty [.consume, .press 16]).2 =
        some Bitmap.blank := by
  have hcreate : Host.create {} (Log.create {} (Clock.ofList [])) = .ok switchedOn := rfl
  refine ⟨hcreate, ?_, ?_⟩
  · apply (switchedOn.dirty_iff_repaintDue _ hcreate _).1.1
    decide +kernel
  · exact (switchedOn.dirty_iff_repaintDue _ hcreate _).2 rfl

end Host

end ChipEight
