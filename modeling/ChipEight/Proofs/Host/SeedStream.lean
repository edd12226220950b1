import ChipEight.Proofs.Host.Serving
import ChipEight.Proofs.Machine.RandomStream

/-!
The random bytes of a host. Each of its fresh machines starts over with the key of the
seed, and from there on only the steps that draw move the key on. Whether they were asked
for one by one or in batches, and what the host did in between, is of no account. A batch
that ends at an unknown opcode has drawn for the steps up to there and for no other.
-/

namespace ChipEight.Host

def draws (h : Host) (r : Request) : List Draw := h.machine.draws (h.made r).length

/-- A record that requests add to and that a reset starts anew. -/
def sinceReset {α : Type} (files : Files) (added : Host → Request → List α) (h : Host)
    (record : List α) : List Request → List α
  | [] => record
  | r :: rest =>
    sinceReset files added (h.serve files r).1
      (if r = .reset then [] else record ++ added h r) rest

variable (files : Files) (h : Host)

theorem length_draws {r : Request} {n : Nat} (hmade : h.made r = (h.machine.run n).2) :
    (h.draws r).length = (h.made r).countP fun e => e.kind == .random := by
  rw [draws, Machine.length_draws, hmade, Machine.length_run]

variable {record : List Draw}

theorem drawn_serve (hdrawn : Drawn h.key record h.machine) (r : Request) :
    Drawn h.key (if r = .reset then [] else record ++ h.draws r)
      (h.serve files r).1.machine := by
  by_cases hreset : r = .reset
  · subst hreset
    exact Drawn.nil (Machine.fresh h.key h.setup.coupled)
  · obtain ⟨n, hmade, hserved, -⟩ := h.exists_serve_eq_run files r hreset
    rw [if_neg hreset, draws, hmade, Machine.length_run]
    have hrandom : (h.serve files r).1.machine.random = (h.machine.run n).1.random := by
      rw [hserved]
    exact (hdrawn.run n).of_random_eq hrandom

theorem drawn_serveAll (hdrawn : Drawn h.key record h.machine) (requests : List Request) :
    Drawn h.key (sinceReset files draws h record requests)
      (h.serveAll files requests).1.machine := by
  induction requests generalizing h record with
  | nil => exact hdrawn
  | cons r rest ih =>
    have hnext := h.drawn_serve files hdrawn r
    rw [← h.key_serve files r] at hnext ⊢
    exact ih _ hnext

theorem drawn_create {setup : HostSetup} {log : Log} (hcreate : create setup log = .ok h) :
    RandomKey.ofSeed setup.seed = .ok h.key ∧ Drawn h.key [] h.machine := by
  obtain ⟨key, hkey, rfl⟩ := create_ok hcreate
  exact ⟨hkey, Drawn.nil (Machine.fresh key setup.coupled)⟩

theorem length_sinceReset_draws {events : List Event}
    (hlength : record.length = events.countP fun e => e.kind == .random)
    (requests : List Request) :
    (sinceReset files draws h record requests).length =
      (sinceReset files made h events requests).countP fun e => e.kind == .random := by
  induction requests generalizing h record events with
  | nil => exact hlength
  | cons r rest ih =>
    apply ih
    split
    case isTrue => rfl
    case isFalse hreset =>
      obtain ⟨n, hmade, -, -⟩ := h.exists_serve_eq_run files r hreset
      rw [List.length_append, List.countP_append, hlength, h.length_draws hmade]

/-- After any steps of a machine its key is the one that it had, moved on once for each
draw, and the draws got the bytes of the keys in between. The same is true of a host,
from its last reset on and with the key of its seed, whatever it is asked for. -/
theorem stream_follows_draws (m : Machine) (n : Nat) {setup : HostSetup} {log : Log}
    (hcreate : Host.create setup log = .ok h) (requests : List Request) :
    (Drawn m.random (m.draws n) (m.run n).1 ∧
      (m.draws n).length = (m.run n).2.countP fun e => e.kind == .random) ∧
    RandomKey.ofSeed setup.seed = .ok h.key ∧
    Drawn h.key (sinceReset files draws h [] requests) (h.serveAll files requests).1.machine ∧
    (sinceReset files draws h [] requests).length =
      (sinceReset files made h [] requests).countP fun e => e.kind == .random := by
  have hrun := (Drawn.nil m).run n
  rw [List.nil_append] at hrun
  obtain ⟨hseed, hfresh⟩ := h.drawn_create hcreate
  exact ⟨⟨hrun, m.length_draws n⟩, hseed, h.drawn_serveAll files hfresh requests,
    h.length_sinceReset_draws files rfl requests⟩

def seven : Host := unasked { seed := 7, strict := true } ⟨0, 7⟩ {}

/-- Two dice are thrown before an unknown opcode, by a batch and, after a reset, by a
step and a batch. -/
def dice : List Request :=
  [.load "dice" [0xC0, 0xFF, 0xC1, 0x0F], .run 9, .tick, .press 3, .reset,
    .load "dice" [0xC0, 0xFF, 0xC1, 0x0F], .step, .run 9]

theorem stream_of_seven :
    Host.create { seed := 7, strict := true } (Log.create {} (Clock.ofList [])) = .ok seven ∧
      Drawn ⟨0, 7⟩ [⟨0xFF, 0x1F⟩, ⟨0x0F, 0x0B⟩] (seven.serveAll .empty dice).1.machine := by
  have hcreate : Host.create { seed := 7, strict := true }
      (Log.create {} (Clock.ofList [])) = .ok seven := rfl
  have hdraws : sinceReset .empty draws seven [] dice =
      [⟨0xFF, 0x1F⟩, ⟨0x0F, 0x0B⟩] := by
    decide +kernel
  have hstream := seven.stream_follows_draws .empty seven.machine 2 hcreate dice
  rw [hdraws] at hstream
  exact ⟨hcreate, hstream.2.2.1⟩

end ChipEight.Host
