import ChipEight.Proofs.CallStack.Depth
import ChipEight.Proofs.Machine.Footprint
import Mathlib.Data.List.Infix

/-!
Calls and returns over whole runs. Between a call and the return that belongs to
it a program may call and return as it likes, as long as it returns from no more
than it called and is never more than fifteen calls deep. The address behind the
call then stays in its slot, at the depth to which the calls in between have
pushed it, so the return finds it on top and the stack is as high as before.
-/

namespace ChipEight

/-- Calls and returns that match, at most `limit` of them open at any time. -/
structure Nested (limit : Nat) (kinds : List Kind) : Prop where
  balanced : kinds.count .call = kinds.count .ret
  covered : ∀ p, p <+: kinds → p.count .ret ≤ p.count .call
  shallow : ∀ p, p <+: kinds → p.count .call ≤ p.count .ret + limit

theorem nested_iff (limit : Nat) (kinds : List Kind) :
    Nested limit kinds ↔ kinds.count .call = kinds.count .ret ∧
      ∀ p ∈ kinds.inits, p.count .ret ≤ p.count .call ∧ p.count .call ≤ p.count .ret + limit := by
  simp only [List.mem_inits]
  constructor
  · intro hnested
    rcases hnested with ⟨hbalanced, hcovered, hshallow⟩
    exact ⟨hbalanced, fun p hp => ⟨hcovered p hp, hshallow p hp⟩⟩
  · intro hkinds
    rcases hkinds with ⟨hbalanced, hopen⟩
    exact ⟨hbalanced, fun p hp => (hopen p hp).1, fun p hp => (hopen p hp).2⟩

instance (limit : Nat) (kinds : List Kind) : Decidable (Nested limit kinds) :=
  decidable_of_iff' _ (nested_iff limit kinds)

def openCalls (kinds : List Kind) : Nat := kinds.count .call - kinds.count .ret

theorem openCalls_concat_call (kinds : List Kind) (h : kinds.count .ret ≤ kinds.count .call) :
    openCalls (kinds ++ [.call]) = openCalls kinds + 1 := by
  simp only [openCalls, List.count_append, List.count_singleton_self, List.count_singleton,
    show (Kind.call == Kind.ret) = false by decide, Bool.false_eq_true, if_false]
  omega

theorem openCalls_concat_ret (kinds : List Kind)
    (h : (kinds ++ [Kind.ret]).count .ret ≤ (kinds ++ [Kind.ret]).count .call) :
    openCalls kinds = openCalls (kinds ++ [.ret]) + 1 := by
  simp only [openCalls, List.count_append, List.count_singleton_self, List.count_singleton,
    show (Kind.ret == Kind.call) = false by decide, Bool.false_eq_true, if_false] at h ⊢
  omega

theorem openCalls_concat (kinds : List Kind) {k : Kind} (hcall : k ≠ .call) (hret : k ≠ .ret) :
    openCalls (kinds ++ [k]) = openCalls kinds := by
  simp only [openCalls, List.count_append, List.count_singleton, beq_iff_eq, hcall, hret, if_false,
    Nat.add_zero]

/-- An address lies below `depth` later ones, pushed from the pointer `base` on. -/
structure Buried (base : Nat) (a : Word) (depth : Nat) (s : CallStack) : Prop where
  depth_le : depth ≤ 15
  entry_eq : s.entry depth = a
  pointer_eq : s.pointer.toNat = (base + depth) % 16

namespace Buried

variable {base depth : Nat} {a : Word} {s : CallStack}

theorem pointer_lt (h : Buried base a depth s) : s.pointer.toNat < 16 := by
  have hp := h.pointer_eq
  omega

theorem of_push (s : CallStack) (h : s.pointer.toNat < 16) (a : Word) :
    Buried (s.pointer.toNat + 1) a 0 (s.push a) where
  depth_le := by omega
  entry_eq := s.entry_push_zero a h
  pointer_eq := s.pointer_push a

theorem push (h : Buried base a depth s) (hdepth : depth < 15) (b : Word) :
    Buried base a (depth + 1) (s.push b) where
  depth_le := by omega
  entry_eq := (s.entry_push_succ b h.pointer_lt depth hdepth).trans h.entry_eq
  pointer_eq := by
    rw [s.pointer_push, h.pointer_eq]
    omega

theorem pop (h : Buried base a (depth + 1) s) : Buried base a depth s.pop.1 where
  depth_le := by
    have hle := h.depth_le
    omega
  entry_eq := (s.entry_pop depth h.depth_le).trans h.entry_eq
  pointer_eq := by
    rw [s.pointer_pop, h.pointer_eq]
    omega

/-- At depth zero a pop takes the address and the pointer goes below it. -/
theorem pop_zero (h : Buried base a 0 s) :
    s.pop.2 = a ∧ s.pop.1.pointer.toNat = (base + 15) % 16 := by
  constructor
  · exact s.pop_eq_entry.trans h.entry_eq
  · rw [s.pointer_pop, h.pointer_eq]
    omega

end Buried

namespace Machine

variable (m : Machine)

def kinds (n : Nat) : List Kind := (m.run n).2.map Event.kind

theorem kinds_succ (n : Nat) : m.kinds (n + 1) = m.kinds n ++ [(m.run n).1.step.2.kind] := by
  simp only [kinds, run_succ, List.map_append, List.map_singleton]

theorem pointer_step_lt (h : m.stack.pointer.toNat < 16) : m.step.1.stack.pointer.toNat < 16 := by
  by_cases hcall : m.step.2.kind = .call
  · rw [m.stack_step_of_call hcall]
    exact CallStack.pointer_push_lt _ _
  · by_cases hret : m.step.2.kind = .ret
    · rw [(m.step_of_ret hret).1]
      exact CallStack.pointer_pop_lt _
    · rw [m.stack_step hcall hret]
      exact h

/-- What follows the first steps of a run is the run from where they lead. -/
theorem drop_kinds (i n : Nat) : (m.kinds (i + n)).drop i = (m.run i).1.kinds n := by
  have hlength : ((m.run i).2.map Event.kind).length = i := by
    rw [List.length_map, length_run]
  rw [kinds, run_add, List.map_append, List.drop_left' hlength, kinds]

theorem pointer_run_lt (h : m.stack.pointer.toNat < 16) (n : Nat) :
    (m.run n).1.stack.pointer.toNat < 16 := by
  induction n with
  | zero => exact h
  | succ n ih =>
    rw [run_succ]
    exact pointer_step_lt _ ih

/-- While calls and returns are nested no deeper than fifteen, an address that was
on top lies below the calls that are still open. -/
theorem buried_run {base : Nat} {a : Word} (h : Buried base a 0 m.stack) (n : Nat)
    (hcovered : ∀ p, p <+: m.kinds n → p.count .ret ≤ p.count .call)
    (hshallow : ∀ p, p <+: m.kinds n → p.count .call ≤ p.count .ret + 15) :
    Buried base a (openCalls (m.kinds n)) (m.run n).1.stack := by
  induction n with
  | zero => exact h
  | succ n ih =>
    have hbefore : m.kinds n <+: m.kinds (n + 1) := by
      rw [kinds_succ]
      exact List.prefix_append _ _
    have hburied := ih (fun p hp => hcovered p (hp.trans hbefore))
      (fun p hp => hshallow p (hp.trans hbefore))
    have hold := hcovered _ hbefore
    have hnew := hcovered _ List.prefix_rfl
    have hdeep : openCalls (m.kinds (n + 1)) ≤ 15 := by
      have hlast := hshallow _ List.prefix_rfl
      unfold openCalls
      omega
    rw [kinds_succ] at hnew hdeep ⊢
    rw [run_succ]
    by_cases hcall : (m.run n).1.step.2.kind = .call
    · rw [hcall, openCalls_concat_call _ hold] at hdeep ⊢
      rw [stack_step_of_call _ hcall]
      exact hburied.push hdeep _
    · by_cases hret : (m.run n).1.step.2.kind = .ret
      · rw [hret] at hnew ⊢
        rw [(step_of_ret _ hret).1]
        rw [openCalls_concat_ret _ hnew] at hburied
        exact hburied.pop
      · rw [openCalls_concat _ hcall hret, stack_step _ hcall hret]
        exact hburied

/-- A return goes behind the call that it belongs to and leaves the stack as high
as the call found it. -/
theorem return_behind_call (hpointer : m.stack.pointer.toNat < 16) (i j : Nat) (hij : i < j)
    (hcall : (m.run i).1.step.2.kind = .call) (hret : (m.run j).1.step.2.kind = .ret)
    (hinner : Nested 15 ((m.kinds j).drop (i + 1))) :
    (m.run (j + 1)).1.pc.toNat = ((m.run i).1.pc.toNat + 2) % 65536 ∧
      (m.run (j + 1)).1.stack.pointer = (m.run i).1.stack.pointer := by
  obtain ⟨n, rfl⟩ : ∃ n, j = i + 1 + n := ⟨j - (i + 1), by omega⟩
  rw [drop_kinds] at hinner
  have hlow := m.pointer_run_lt hpointer i
  have hentered : Buried ((m.run i).1.stack.pointer.toNat + 1) ((m.run i).1.pc + 2) 0
      (m.run (i + 1)).1.stack := by
    rw [run_succ, stack_step_of_call _ hcall]
    exact Buried.of_push _ hlow _
  have hburied := buried_run _ hentered n hinner.covered hinner.shallow
  have hclosed : openCalls ((m.run (i + 1)).1.kinds n) = 0 := by
    rw [openCalls, hinner.balanced, Nat.sub_self]
  rw [hclosed] at hburied
  have hrun : (m.run (i + 1 + n)).1 = ((m.run (i + 1)).1.run n).1 := by rw [run_add]
  rw [← hrun] at hburied
  obtain ⟨hpop, hpointer⟩ := hburied.pop_zero
  obtain ⟨hstack, hpc⟩ := step_of_ret _ hret
  rw [run_succ]
  constructor
  · rw [hpc, hpop, UInt16.toNat_add]
    rfl
  · rw [hstack]
    apply UInt8.toNat_inj.1
    rw [hpointer]
    omega

/-- A subroutine that calls another, on a machine whose pointer is about to go
around the ring. -/
def nestedCalls : Machine :=
  let fresh := Machine.fresh ⟨0, 0⟩ true
  let program := [0x22, 0x04, 0x00, 0x00, 0x22, 0x08, 0x00, 0xEE, 0x00, 0xEE]
  { fresh with
    memory := fresh.memory.writeBytes Program.origin program
    stack := { fresh.stack with pointer := 15 } }

/-- The outer return of the two leads behind the outer call. -/
theorem return_of_nestedCalls :
    nestedCalls.stack.pointer.toNat < 16 ∧
      (nestedCalls.run 0).1.step.2.kind = .call ∧ (nestedCalls.run 3).1.step.2.kind = .ret ∧
      Nested 15 ((nestedCalls.kinds 3).drop 1) ∧
      (nestedCalls.run 4).1.pc.toNat = 0x202 ∧ (nestedCalls.run 4).1.stack.pointer = 15 := by
  have hpointer : nestedCalls.stack.pointer.toNat < 16 := by decide
  have hcall : (nestedCalls.run 0).1.step.2.kind = .call := by decide +kernel
  have hret : (nestedCalls.run 3).1.step.2.kind = .ret := by decide +kernel
  have hinner : Nested 15 ((nestedCalls.kinds 3).drop 1) := by decide +kernel
  have hpc : (nestedCalls.run 0).1.pc.toNat = 0x200 := by decide
  obtain ⟨hback, hstack⟩ :=
    nestedCalls.return_behind_call hpointer 0 3 (by decide) hcall hret hinner
  simp only [hpc, Nat.reduceAdd, Nat.reduceMod] at hback hstack
  exact ⟨hpointer, hcall, hret, hinner, hback, hstack⟩

end Machine

end ChipEight
