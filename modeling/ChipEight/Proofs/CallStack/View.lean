import ChipEight.Proofs.CallStack.Depth
import Mathlib.Data.List.DropRight
import Mathlib.Data.List.Rotate

/-!
The whole ring seen from its top, as the list of its sixteen addresses. A push puts an
address in front of the list and drops the last one, a pop moves the first one to the
end, wherever the pointer stands. So what a sequence of pushes and pops leaves and gives
back is read off the list alone. There the addresses pushed last come back in reverse
order, and sixteen pops go once around.
-/

namespace ChipEight.CallStack

/-- A push of an address, or a pop. -/
inductive Move where
  | push (a : Word)
  | pop

/-- Moves one after the other by a rule for each: what they leave, and the addresses that
they give back, in order. -/
def playMoves {σ : Type} (rule : σ → Move → σ × Option Word) (s : σ) :
    List Move → σ × List Word
  | [] => (s, [])
  | x :: rest =>
    let after := rule s x
    let later := playMoves rule after.1 rest
    (later.1, after.2.toList ++ later.2)

theorem playMoves_append {σ : Type} (rule : σ → Move → σ × Option Word) (s : σ)
    (first second : List Move) :
    playMoves rule s (first ++ second) =
      let after := playMoves rule s first
      let later := playMoves rule after.1 second
      (later.1, after.2 ++ later.2) := by
  induction first generalizing s with
  | nil => rfl
  | cons x rest ih => simp only [List.cons_append, playMoves, ih, List.append_assoc]

def move (s : CallStack) : Move → CallStack × Option Word
  | .push a => (s.push a, none)
  | .pop => (s.pop.1, some s.pop.2)

def moveView (v : List Word) : Move → List Word × Option Word
  | .push a => (a :: v.take 15, none)
  | .pop => (v.tail ++ v.head?.toList, v.head?)

section Lists

variable {v : List Word}

theorem moveView_pop : moveView v .pop = (v.rotate 1, v.head?) := by
  cases v with
  | nil => rfl
  | cons a rest =>
    rw [List.rotate_cons_succ, List.rotate_zero]
    rfl

/-- Pops take the addresses off the front and turn the list by as many places. -/
theorem playMoves_pops {m : Nat} (hm : m ≤ v.length) :
    playMoves moveView v (List.replicate m .pop) = (v.rotate m, v.take m) := by
  -- The last pop is split off: it finds the list turned `m` times, and its top at place `m`.
  induction m with
  | zero =>
    rw [List.rotate_zero]
    rfl
  | succ m ih =>
    have hhead : (v.rotate m).head? = v[m]? := List.head?_rotate hm
    rw [List.replicate_succ', playMoves_append, ih (by omega)]
    simp only [playMoves, moveView_pop, hhead, List.append_nil]
    rw [List.rotate_rotate, List.take_add_one]

/-- Pushes give nothing back. They leave the last sixteen of the addresses that were there
and those pushed since, the newest in front. -/
theorem playMoves_pushes (hv : v.length = 16) (addresses : List Word) :
    playMoves moveView v (addresses.map .push) = ((addresses.reverse ++ v).take 16, []) := by
  induction addresses using List.reverseRecOn with
  | nil =>
    rw [List.reverse_nil, List.nil_append, ← hv, List.take_length]
    rfl
  | append_singleton rest a ih =>
    rw [List.map_append, playMoves_append, ih, List.reverse_concat, List.cons_append,
      List.take_succ_cons]
    simp only [List.map_singleton, playMoves, moveView, List.take_take]
    rfl

/-- Up to sixteen pops after any number of pushes give back what was pushed, the last
address first, and then what was there before. -/
theorem playMoves_pushes_pops (hv : v.length = 16) (addresses : List Word) {m : Nat}
    (hm : m ≤ 16) :
    (playMoves moveView v (addresses.map .push ++ List.replicate m .pop)).2 =
      (addresses.reverse ++ v).take m := by
  have hlength : m ≤ ((addresses.reverse ++ v).take 16).length := by
    rw [List.length_take, List.length_append]
    omega
  rw [playMoves_append, playMoves_pushes hv]
  simp only [playMoves_pops hlength, List.nil_append]
  rw [List.take_take, Nat.min_eq_left hm]

end Lists

variable (s : CallStack)

/-- The addresses from the slot behind the pointer downwards, once around the ring. -/
def view : List Word := (List.range 16).map s.entry

theorem length_view : s.view.length = 16 := by
  rw [view, List.length_map, List.length_range]

theorem view_eq_cons :
    s.view = s.pop.2 :: (List.range 15).map fun depth => s.entry (depth + 1) := by
  rw [view, List.range_succ_eq_map, List.map_cons, List.map_map, s.pop_eq_entry]
  rfl

theorem view_push (a : Word) (h : s.pointer.toNat < 16) :
    (s.push a).view = a :: s.view.take 15 := by
  have hbelow : s.view.take 15 = (List.range 15).map s.entry := by
    rw [view, ← List.map_take, List.take_range]
    rfl
  have hmoved : ∀ depth ∈ List.range 15, (s.push a).entry (depth + 1) = s.entry depth :=
    fun depth hdepth => s.entry_push_succ a h depth (List.mem_range.1 hdepth)
  rw [view_eq_cons, s.pop_push a h, List.map_congr_left hmoved, hbelow]

theorem view_pop : s.pop.1.view = s.view.tail ++ [s.pop.2] := by
  have hlast : s.pop.1.entry 15 = s.pop.2 := s.entry_pop_deepest.trans s.pop_eq_entry.symm
  have hmoved : ∀ depth ∈ List.range 15, s.pop.1.entry depth = s.entry (depth + 1) :=
    fun depth hdepth => s.entry_pop depth (List.mem_range.1 hdepth)
  rw [view, List.range_succ, List.map_append, List.map_singleton, List.map_congr_left hmoved,
    hlast, view_eq_cons, List.tail_cons]

theorem getElem?_view {depth : Nat} (h : depth < 16) : s.view[depth]? = some (s.entry depth) := by
  rw [view, List.getElem?_map, List.getElem?_range h]
  rfl

/-- The pointer and the addresses from there down make up the whole stack. -/
theorem eq_of_view_eq {s t : CallStack} (hpointer : s.pointer = t.pointer)
    (hview : s.view = t.view) : s = t := by
  have hentry (depth : Nat) (hdepth : depth < 16) : s.entry depth = t.entry depth := by
    apply Option.some.inj
    rw [← getElem?_view s hdepth, ← getElem?_view t hdepth, hview]
  have hslots : s.slots = t.slots := by
    apply Vector.ext
    intro j hj
    rw [s.slot_eq_entry j hj, t.slot_eq_entry j hj, hpointer]
    exact hentry _ (Nat.mod_lt _ (by decide))
  calc
    s = ⟨s.slots, s.pointer⟩ := rfl
    _ = ⟨t.slots, t.pointer⟩ := by rw [hslots, hpointer]

theorem pointer_move_lt (x : Move) : (s.move x).1.pointer.toNat < 16 := by
  cases x with
  | push a => exact s.pointer_push_lt a
  | pop => exact s.pointer_pop_lt

/-- A move of the stack is a move of its view. -/
theorem moveView_view (h : s.pointer.toNat < 16) (x : Move) :
    moveView s.view x = ((s.move x).1.view, (s.move x).2) := by
  cases x with
  | push a => rw [move, s.view_push a h, moveView]
  | pop =>
    rw [move, s.view_pop, moveView, s.view_eq_cons]
    rfl

theorem pointer_playMoves_lt (h : s.pointer.toNat < 16) (moves : List Move) :
    (playMoves move s moves).1.pointer.toNat < 16 := by
  induction moves generalizing s with
  | nil => exact h
  | cons x rest ih => exact ih _ (s.pointer_move_lt x)

/-- Moves of the stack are moves of its view, and they give back the same addresses. -/
theorem playMoves_view (h : s.pointer.toNat < 16) (moves : List Move) :
    playMoves moveView s.view moves =
      ((playMoves move s moves).1.view, (playMoves move s moves).2) := by
  induction moves generalizing s with
  | nil => rfl
  | cons x rest ih =>
    simp only [playMoves, s.moveView_view h x, ih _ (s.pointer_move_lt x)]

theorem pointer_playMoves_pops (h : s.pointer.toNat < 16) (m : Nat) :
    (playMoves move s (List.replicate m .pop)).1.pointer.toNat
      = (s.pointer.toNat + 15 * m) % 16 := by
  induction m with
  | zero => exact (Nat.mod_eq_of_lt h).symm
  | succ m ih =>
    rw [List.replicate_succ', playMoves_append]
    simp only [playMoves, move, pointer_pop, ih]
    omega

/-- Sixteen pops take every address once and leave the stack as it was. -/
theorem playMoves_sixteen_pops (h : s.pointer.toNat < 16) :
    playMoves move s (List.replicate 16 .pop) = (s, s.view) := by
  have hseen := s.playMoves_view h (List.replicate 16 .pop)
  rw [playMoves_pops s.length_view.ge, ← s.length_view, List.rotate_length, List.take_length,
    Prod.mk.injEq] at hseen
  obtain ⟨hview, hgiven⟩ := hseen
  have hpointer : (playMoves move s (List.replicate 16 .pop)).1.pointer = s.pointer := by
    apply UInt8.toNat_inj.1
    rw [s.pointer_playMoves_pops h]
    omega
  exact Prod.ext (eq_of_view_eq hpointer hview.symm) hgiven.symm

/-- A push and a pop act on the ring as on the list of its addresses from the top down, and
so does any sequence of them. The addresses that were pushed last come back in reverse
order, sixteen pops restore the stack, and a pop behind a push gives back its address and
restores the pointer. -/
theorem ring_seen_from_top (h : s.pointer.toNat < 16) :
    (∀ a : Word, (s.push a).view = a :: s.view.take 15) ∧
    (s.view.head? = some s.pop.2 ∧ s.pop.1.view = s.view.tail ++ [s.pop.2]) ∧
    (∀ moves : List Move,
      (playMoves move s moves).1.pointer.toNat < 16 ∧
        playMoves moveView s.view moves =
          ((playMoves move s moves).1.view, (playMoves move s moves).2)) ∧
    (∀ (addresses : List Word) (m : Nat), m ≤ 16 → m ≤ addresses.length →
      (playMoves move s (addresses.map .push ++ List.replicate m .pop)).2 =
        (addresses.rtake m).reverse) ∧
    playMoves move s (List.replicate 16 .pop) = (s, s.view) ∧
    ∀ a : Word, (s.push a).pop.2 = a ∧ (s.push a).pop.1.pointer = s.pointer := by
  refine ⟨fun a => s.view_push a h, ⟨?_, s.view_pop⟩, ?_, ?_, s.playMoves_sixteen_pops h, ?_⟩
  · rw [s.view_eq_cons, List.head?_cons]
  · intro moves
    exact ⟨s.pointer_playMoves_lt h moves, s.playMoves_view h moves⟩
  · intro addresses m hm hlength
    have hgiven := playMoves_pushes_pops s.length_view addresses hm
    rw [s.playMoves_view h] at hgiven
    rw [hgiven, List.take_append_of_le_length (by rwa [List.length_reverse]),
      List.rtake_eq_reverse_take_reverse, List.reverse_reverse]
  · intro a
    exact ⟨s.pop_push a h, s.pointer_pop_push a h⟩

def atLastSlot : CallStack where
  slots := Vector.ofFn fun j => UInt16.ofNat (0x200 + 2 * j.val)
  pointer := 15

def eighteenAddresses : List Word := (List.range 18).map fun i => UInt16.ofNat (0x300 + 2 * i)

/-- Eighteen pushes go around the ring once and overwrite two of their own addresses; a pop
more than there were pushes reads what was there before. -/
theorem ring_seen_from_top_atLastSlot :
    atLastSlot.pointer.toNat < 16 ∧ 16 ≤ eighteenAddresses.length ∧
      (playMoves move atLastSlot
        (eighteenAddresses.map .push ++ List.replicate 16 .pop)).2 =
          [0x322, 0x320, 0x31E, 0x31C, 0x31A, 0x318, 0x316, 0x314,
           0x312, 0x310, 0x30E, 0x30C, 0x30A, 0x308, 0x306, 0x304] ∧
      (playMoves move atLastSlot [.push 0x300, .pop, .pop]).2 = [0x300, 0x21C] ∧
      (playMoves move atLastSlot (List.replicate 16 .pop)).1 = atLastSlot := by
  have hpointer : atLastSlot.pointer.toNat < 16 := by decide
  have hlength : 16 ≤ eighteenAddresses.length := by decide
  obtain ⟨-, -, hmoves, hlast, haround, -⟩ := atLastSlot.ring_seen_from_top hpointer
  have hread := congrArg Prod.snd (hmoves [.push 0x300, .pop, .pop]).2
  refine ⟨hpointer, hlength, ?_, ?_, congrArg Prod.fst haround⟩
  · rw [hlast eighteenAddresses 16 (by decide) hlength]
    decide
  · rw [← hread]
    decide

end ChipEight.CallStack
