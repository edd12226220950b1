import ChipEight.Proofs.Host.EventCount
import ChipEight.Proofs.Instruction.Disassembly

/-!
The trace of single steps. A host that traces looks at the instruction before it makes the
step, and the machine fetches it once more; both find the same word, wherever the program
counter points and whatever earlier steps wrote there. So the trace line of a step and its
event name one address and one word, also where the step is a fault, and no two addresses
or words have the same line.
-/

namespace ChipEight

open Text

theorem append_cons_inj_of_notMem_left {α : Type} [DecidableEq α] {a : α}
    {first second first' second' : List α} (ha : a ∉ first) (ha' : a ∉ first')
    (h : first ++ a :: second = first' ++ a :: second') : first = first' ∧ second = second' := by
  have hplace := congrArg (List.idxOf a) h
  rw [List.idxOf_append_of_notMem ha, List.idxOf_append_of_notMem ha', List.idxOf_cons_self,
    List.idxOf_cons_self] at hplace
  obtain ⟨hfirst, hrest⟩ := List.append_inj h hplace
  exact ⟨hfirst, (List.cons.inj hrest).2⟩

namespace Text

theorem hexSigned_natCast (width n : Nat) : hexSigned width (n : Int) = hex width n := by
  rw [hexSigned, if_neg (by omega), Int.natAbs_natCast]

theorem hex_inj {width a b : Nat} (h : (hex width a).toList = (hex width b).toList) : a = b := by
  rw [← hexValue_hex width a, h, hexValue_hex]

theorem notMem_hex {c : Char} (hc : c ∉ hexAlphabet) (width n : Nat) :
    c ∉ (hex width n).toList :=
  fun hmem => hc (mem_hex hmem)

end Text

namespace Instruction

/-- A word and its number have the same text. -/
theorem disassemble?_toNat (w : Word) : disassemble? w.toNat = some (ofWord w).assembly := by
  have hlt := w.toNat_lt
  obtain ⟨v, hv⟩ := exists_ofInt? (n := (w.toNat : Int)) (by omega)
  have hnumber := emod_eq_toNat hv
  obtain rfl : v = w := UInt16.toNat_inj.1 (by omega)
  rw [disassemble?_eq hv, assembly]
  cases hkind : Kind.ofWord v with
  | unknown =>
    have hunknown : ofWord v = unknown v := by rw [ofWord, hkind]
    rw [hunknown, lineParts, hexSigned_natCast]
    rfl
  | _ =>
    have hknown : (ofWord v).kind ≠ .unknown := by
      rw [kind_ofWord, hkind]
      exact Kind.noConfusion
    rw [lineParts_of_known _ hknown]

end Instruction

namespace Event

def traceText (e : Event) : String :=
  "0x" ++ hex 3 e.address.toNat ++ ": " ++ hex 4 e.instruction.toNat ++ "  " ++
    (Instruction.ofWord e.instruction).assembly

theorem toList_traceText (e : Event) : e.traceText.toList =
    "0x".toList ++ ((hex 3 e.address.toNat).toList ++ ':' :: ' ' ::
      ((hex 4 e.instruction.toNat).toList ++ ' ' :: ' ' ::
        (Instruction.ofWord e.instruction).assembly.toList)) := by
  simp only [traceText, String.toList_append, List.append_assoc]
  rfl

/-- A trace line tells the address and the word. -/
theorem eq_of_traceText_eq {e f : Event} (h : e.traceText = f.traceText) :
    e.address = f.address ∧ e.instruction = f.instruction := by
  have hlists := congrArg String.toList h
  rw [toList_traceText, toList_traceText, List.append_cancel_left_eq] at hlists
  obtain ⟨haddress, hrest⟩ := append_cons_inj_of_notMem_left
    (notMem_hex (by decide) _ _) (notMem_hex (by decide) _ _) hlists
  obtain ⟨hword, -⟩ := append_cons_inj_of_notMem_left
    (notMem_hex (by decide) _ _) (notMem_hex (by decide) _ _) (List.cons.inj hrest).2
  exact ⟨UInt16.toNat_inj.1 (hex_inj haddress), UInt16.toNat_inj.1 (hex_inj hword)⟩

end Event

namespace HostSetup

variable (setup : HostSetup)

def tracedMessages (e : Event) : List Message :=
  ⟨"DEBUG", e.traceText⟩ ::
    if setup.stops e then [] else
      (if e.unknown then
        [⟨"WARNING", (Fault.unknownOpcode e.instruction.toNat e.address.toNat).message⟩] else []) ++
      if e.tone then [⟨"DEBUG", "Tone at 0x" ++ hex 3 e.address.toNat⟩] else []

variable {setup}

theorem messages_told (htrace : setup.trace = true) (log : Log) (e : Event) :
    (setup.told e).flatMap log.messages = setup.tracedMessages e := by
  have hexecuted : log.messages (.executed e.address.toNat e.instruction.toNat) =
      [⟨"DEBUG", e.traceText⟩] := by
    rw [Log.messages, Instruction.disassemble?_toNat, hexSigned_natCast, hexSigned_natCast]
    rfl
  rw [told, htrace, if_pos rfl, List.flatMap_append, List.flatMap_singleton, hexecuted,
    tracedMessages]
  cases setup.stops e with
  | true => rfl
  | false =>
    unfold Event.reports
    cases e.unknown <;> cases e.tone <;> simp [Log.messages, hexSigned_natCast]

/-- No report of a step is a summary, which alone hangs on the log that prints it. -/
theorem messages_congr_of_mem_told {e : Event} {r : Report} (hr : r ∈ setup.told e)
    (log log' : Log) : log.messages r = log'.messages r := by
  cases r with
  | sessionEnd pairs => simp [told, Event.reports] at hr
  | _ => rfl

end HostSetup

namespace Host

variable (files : Files) (h : Host)

/-- A host that shows all levels prints every message of the reports it is told. -/
theorem shows_of_debug (hdebug : Level.severity h.log.style.threshold = 0) (level : String) :
    h.log.shows level = true := by
  rw [Log.shows, hdebug]
  exact decide_eq_true (Nat.zero_le _)

/-- A traced step prints its trace line and then what its event reports. -/
theorem exists_printed_step (htrace : h.setup.trace = true)
    (hdebug : Level.severity h.log.style.threshold = 0) : ∃ shown,
    (h.serve files .step).1.log.printed.toList = h.log.printed.toList ++ shown ∧
      List.Forall₂ h.log.Shows (h.setup.tracedMessages h.machine.step.2) shown := by
  obtain ⟨lines, hprinted, hlines⟩ :=
    h.log.exists_printed_reportAll (h.setup.told h.machine.step.2)
      fun r hr log => HostSetup.messages_congr_of_mem_told hr log h.log
  rw [HostSetup.messages_told htrace,
    List.filter_eq_self.2 fun m _ => h.shows_of_debug hdebug m.level] at hlines
  refine ⟨lines.toList, ?_, hlines⟩
  rw [serve_step_eq, ← Array.toList_append, ← hprinted]
  rfl

/-- Requests leave the style of the log, and with it what shows a message. -/
theorem shows_serve (r : Request) :
    (h.serve files r).1.log.style = h.log.style ∧
      (h.serve files r).1.log.Shows = h.log.Shows := by
  have hlog : (h.serve files r).1.log = h.log.reportAll (h.told files r) :=
    congrArg Journal.log (h.journal_serve files r)
  rw [hlog]
  exact ⟨(h.log.style_reportAll _).1, (h.log.shows_reportAll _).2⟩

/-- The machine makes a run, and each of its events is answered. -/
theorem serveAll_replicate_step (n : Nat) :
    (h.serveAll files (List.replicate n .step)).1.machine = (h.machine.run n).1 ∧
      (h.serveAll files (List.replicate n .step)).2 =
        (h.machine.run n).2.map h.setup.answer := by
  induction n generalizing h with
  | zero => exact ⟨rfl, rfl⟩
  | succ n ih =>
    obtain ⟨hmachine, hanswers⟩ := ih (h.serve files .step).1
    have hanswer : (h.serve files .step).2 = h.setup.answer h.machine.step.2 :=
      congrArg Prod.snd (h.serve_step_eq files)
    rw [setup_serve] at hanswers
    rw [List.replicate_succ, serveAll, Machine.run, List.map_cons]
    exact ⟨hmachine, congrArg₂ _ hanswer hanswers⟩

/-- Traced steps print group after group, one group of lines for each event. -/
theorem exists_printed_steps (htrace : h.setup.trace = true)
    (hdebug : Level.severity h.log.style.threshold = 0) (n : Nat) :
    ∃ groups : List (List String),
      (h.serveAll files (List.replicate n .step)).1.log.printed.toList =
          h.log.printed.toList ++ groups.flatten ∧
        List.Forall₂ (fun e group => List.Forall₂ h.log.Shows (h.setup.tracedMessages e) group)
          (h.machine.run n).2 groups := by
  induction n generalizing h with
  | zero => exact ⟨[], (List.append_nil _).symm, .nil⟩
  | succ n ih =>
    obtain ⟨group, hprinted, hgroup⟩ := h.exists_printed_step files htrace hdebug
    obtain ⟨hstyle, hshows⟩ := h.shows_serve files .step
    obtain ⟨groups, hrest, hgroups⟩ := ih (h.serve files .step).1
      (by rw [setup_serve]; exact htrace) (by rw [hstyle]; exact hdebug)
    rw [setup_serve, hshows] at hgroups
    refine ⟨group :: groups, ?_, .cons hgroup hgroups⟩
    rw [List.flatten_cons, ← List.append_assoc, ← hprinted]
    exact hrest

/-- Whatever a machine runs, also code that it writes itself, at odd addresses and behind
the end of its memory: a host that traces steps and shows all levels prints for each step a
line of its address, its word and the assembly text of that word, and then what the event of
the step reports, if the host does not stop there. The host answers with this event, and
where it stops the fault has the same address and word. The line tells them both. What a
look at an address finds is what is fetched there, and only the cell of the address counts. -/
theorem trace_tells_what_ran (htrace : h.setup.trace = true)
    (hdebug : Level.severity h.log.style.threshold = 0) :
    (∀ n, (h.serveAll files (List.replicate n .step)).1.machine = (h.machine.run n).1 ∧
      (h.serveAll files (List.replicate n .step)).2 = (h.machine.run n).2.map h.setup.answer ∧
      ∃ groups : List (List String),
        (h.serveAll files (List.replicate n .step)).1.log.printed.toList =
            h.log.printed.toList ++ groups.flatten ∧
          List.Forall₂ (fun e group => List.Forall₂ h.log.Shows (h.setup.tracedMessages e) group)
            (h.machine.run n).2 groups) ∧
    (∀ w : Word, Instruction.disassemble? w.toNat = some (Instruction.ofWord w).assembly) ∧
    (∀ e f : Event, e.traceText = f.traceText →
      e.address = f.address ∧ e.instruction = f.instruction) ∧
    ∀ (k : Host) (address : Int) (m : Machine), m.memory = k.machine.memory →
      (m.pc.toNat : Int) % 4096 = address % 4096 → k.peek address = m.fetch.2 := by
  refine ⟨fun n => ?_, Instruction.disassemble?_toNat, fun e f => Event.eq_of_traceText_eq,
    fun k address m => k.peek_eq_fetch⟩
  obtain ⟨hmachine, hanswers⟩ := h.serveAll_replicate_step files n
  exact ⟨hmachine, hanswers, h.exists_printed_steps files htrace hdebug n⟩

/-- A strict host that traces a machine at the last cell of the memory. The instruction
there goes on in the first cell and writes the word behind itself. -/
def rewriting : Host :=
  { unasked { strict := true, trace := true } ⟨0, 0⟩
      { threshold := "debug", stamped := false } with
    machine :=
      { Machine.fresh ⟨0, 0⟩ true with
        memory := Memory.zero.writeBytes 0xFFF [0xF1, 0x55]
        pc := 0xFFF
        registers := Vector.replicate 16 0xFF
        index := 1 } }

/-- The second word was not there before the first step. It is unknown, and the address of
the fault has more digits than the memory has. -/
theorem trace_tells_what_ran_rewriting :
    rewriting.setup.trace = true ∧ Level.severity rewriting.log.style.threshold = 0 ∧
      (rewriting.serveAll .empty [.step, .step]).2 =
        [.ok (.stepped ⟨0xFFF, 0xF155, false, false, false⟩),
          .error (.unknownOpcode 0xFFFF 0x1001)] ∧
      (∃ first second,
        (rewriting.serveAll .empty [.step, .step]).1.log.printed.toList = [first, second] ∧
        rewriting.log.Shows ⟨"DEBUG", "0xFFF: F155  LD [I], V1"⟩ first ∧
        rewriting.log.Shows ⟨"DEBUG", "0x1001: FFFF  DW FFFF"⟩ second) ∧
      rewriting.peek (-1) = 0xF155 ∧ rewriting.peek 0x12001 = 0 := by
  obtain ⟨hrun, -, -, hpeek⟩ := rewriting.trace_tells_what_ran .empty rfl (by decide)
  have hevents : (rewriting.machine.run 2).2 =
      [⟨0xFFF, 0xF155, false, false, false⟩, ⟨0x1001, 0xFFFF, true, false, false⟩] := by
    decide +kernel
  have hmessages : rewriting.setup.tracedMessages ⟨0xFFF, 0xF155, false, false, false⟩ =
      [⟨"DEBUG", "0xFFF: F155  LD [I], V1"⟩] := by decide +kernel
  have hmessages' : rewriting.setup.tracedMessages ⟨0x1001, 0xFFFF, true, false, false⟩ =
      [⟨"DEBUG", "0x1001: FFFF  DW FFFF"⟩] := by decide +kernel
  obtain ⟨-, hanswers, groups, hprinted, hgroups⟩ := hrun 2
  have hsteps : List.replicate 2 Request.step = [.step, .step] := rfl
  rw [hsteps] at hanswers hprinted
  rw [hevents] at hanswers hgroups
  obtain ⟨_, _, hfirst, hrest, rfl⟩ := List.forall₂_cons_left_iff.1 hgroups
  obtain ⟨_, _, hsecond, hnil, rfl⟩ := List.forall₂_cons_left_iff.1 hrest
  obtain rfl := List.forall₂_nil_left_iff.1 hnil
  rw [hmessages] at hfirst
  rw [hmessages'] at hsecond
  obtain ⟨first, _, hshows, hnil, rfl⟩ := List.forall₂_cons_left_iff.1 hfirst
  obtain rfl := List.forall₂_nil_left_iff.1 hnil
  obtain ⟨second, _, hshows', hnil, rfl⟩ := List.forall₂_cons_left_iff.1 hsecond
  obtain rfl := List.forall₂_nil_left_iff.1 hnil
  have hnothing : rewriting.log.printed.toList = [] := rfl
  rw [hnothing] at hprinted
  refine ⟨rfl, by decide, hanswers, ⟨first, second, hprinted, hshows, hshows'⟩, ?_, ?_⟩
  · rw [hpeek rewriting (-1) { rewriting.machine with pc := 0xFFFF } rfl (by decide)]
    decide +kernel
  · rw [hpeek rewriting 0x12001 { rewriting.machine with pc := 0x3001 } rfl (by decide)]
    decide +kernel

end Host

end ChipEight
