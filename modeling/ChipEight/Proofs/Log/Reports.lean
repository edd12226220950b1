import ChipEight.Log
import Mathlib.Data.List.Forall2
import Mathlib.Data.List.Induction

/-!
A log that is told several reports. Each report is counted, whether or not its messages
are printed, so the counters say how many reports of a kind there were and nothing else.
What was printed stays, with new lines behind it, and a message that the log shows is one
line: a stamp, the level, the name of the log and the text.
-/

namespace ChipEight

namespace Report

def isUnknownOpcode : Report → Bool
  | .unknownOpcode _ => true
  | _ => false

def isTone : Report → Bool
  | .tone _ => true
  | _ => false

def isSummary : Report → Bool
  | .sessionEnd _ => true
  | _ => false

end Report

namespace Log

def reportAll (log : Log) (reports : List Report) : Log := reports.foldl report log

/-- Whether a line shows a message: it is what the log prints for it at some time. -/
def Shows (log : Log) (m : Message) (line : String) : Prop :=
  ∃ clock : Clock, line = { log with clock := clock }.line m

variable (log : Log)

theorem reportAll_cons (r : Report) (reports : List Report) :
    log.reportAll (r :: reports) = (log.report r).reportAll reports := rfl

theorem reportAll_append (first second : List Report) :
    log.reportAll (first ++ second) = (log.reportAll first).reportAll second :=
  List.foldl_append

theorem reportAll_concat (reports : List Report) (r : Report) :
    log.reportAll (reports ++ [r]) = (log.reportAll reports).report r :=
  List.foldl_concat ..

theorem shows_line (m : Message) : log.Shows m (log.line m) := ⟨log.clock, rfl⟩

/-- A message moves the clock at most and adds to what was printed. -/
theorem exists_put_eq (m : Message) : ∃ lines clock,
    log.put m = { log with printed := log.printed ++ lines, clock := clock } ∧
      lines.toList = if log.shows m.level then [log.line m] else [] := by
  unfold put
  split
  · exact ⟨#[log.line m], _, rfl, rfl⟩
  · exact ⟨#[], log.clock, rfl, rfl⟩

/-- Messages are printed behind what was printed before, one line for each that the log
shows, and change nothing else but the clock. -/
theorem exists_putAll_eq (messages : List Message) : ∃ lines clock,
    log.putAll messages = { log with printed := log.printed ++ lines, clock := clock } ∧
      List.Forall₂ log.Shows (messages.filter fun m => log.shows m.level) lines.toList := by
  induction messages generalizing log with
  | nil => exact ⟨#[], log.clock, by rw [Array.append_empty]; rfl, .nil⟩
  | cons m rest ih =>
    obtain ⟨first, time, hfirst, hline⟩ := log.exists_put_eq m
    obtain ⟨others, clock, hothers, hlines⟩ := ih (log.put m)
    rw [hfirst] at hothers hlines
    refine ⟨first ++ others, clock, ?_, ?_⟩
    · rw [← Array.append_assoc]
      exact (congrArg (fun l => l.putAll rest) hfirst).trans hothers
    · rw [Array.toList_append, hline, List.filter_cons]
      split
      · exact .cons (log.shows_line m) hlines
      · exact hlines

/-- A report is counted, and its messages are printed behind what was printed before. -/
theorem exists_report_eq (r : Report) : ∃ lines clock,
    log.report r = { log.count r with printed := log.printed ++ lines, clock := clock } ∧
      List.Forall₂ log.Shows (((log.count r).messages r).filter fun m => log.shows m.level)
        lines.toList := by
  obtain ⟨lines, clock, hput, hlines⟩ :=
    ((log.count r).consult r).exists_putAll_eq ((log.count r).messages r)
  refine ⟨lines, clock, ?_, ?_⟩
  · rw [report, hput]
    cases r <;> rfl
  · cases r <;> exact hlines

theorem style_report (r : Report) :
    (log.report r).style = log.style ∧ (log.report r).started = log.started := by
  obtain ⟨lines, clock, hreport, -⟩ := log.exists_report_eq r
  rw [hreport]
  cases r <;> exact ⟨rfl, rfl⟩

theorem counters_report (r : Report) :
    (log.report r).unknownOpcodes = log.unknownOpcodes + r.isUnknownOpcode.toNat ∧
      (log.report r).tones = log.tones + r.isTone.toNat := by
  obtain ⟨lines, clock, hreport, -⟩ := log.exists_report_eq r
  rw [hreport]
  cases r <;> exact ⟨rfl, rfl⟩

theorem style_reportAll (reports : List Report) :
    (log.reportAll reports).style = log.style ∧
      (log.reportAll reports).started = log.started := by
  induction reports generalizing log with
  | nil => exact ⟨rfl, rfl⟩
  | cons r rest ih =>
    obtain ⟨hstyle, hstarted⟩ := ih (log.report r)
    exact ⟨hstyle.trans (log.style_report r).1, hstarted.trans (log.style_report r).2⟩

theorem shows_reportAll (reports : List Report) :
    (log.reportAll reports).shows = log.shows ∧ (log.reportAll reports).Shows = log.Shows := by
  obtain ⟨hstyle, hstarted⟩ := log.style_reportAll reports
  unfold shows Shows line stamp badge elapsed
  rw [hstyle, hstarted]
  exact ⟨rfl, rfl⟩

/-- Reports whose messages do not hang on the log are printed one after the other. -/
theorem exists_printed_reportAll (reports : List Report)
    (hfree : ∀ r ∈ reports, ∀ k : Log, k.messages r = log.messages r) : ∃ lines,
    (log.reportAll reports).printed = log.printed ++ lines ∧
      List.Forall₂ log.Shows ((reports.flatMap log.messages).filter fun m => log.shows m.level)
        lines.toList := by
  induction reports using List.reverseRecOn with
  | nil => exact ⟨#[], (Array.append_empty).symm, .nil⟩
  | append_singleton rest r ih =>
    rw [List.forall_mem_append, List.forall_mem_singleton] at hfree
    obtain ⟨first, hfirst, hshown⟩ := ih hfree.1
    obtain ⟨others, clock, hreport, hothers⟩ := (log.reportAll rest).exists_report_eq r
    obtain ⟨hshows, hShows⟩ := log.shows_reportAll rest
    rw [hfree.2, hshows, hShows] at hothers
    refine ⟨first ++ others, ?_, ?_⟩
    · rw [reportAll_concat, hreport, ← Array.append_assoc, ← hfirst]
    · rw [List.flatMap_append, List.filter_append, Array.toList_append, List.flatMap_singleton]
      exact List.rel_append hshown hothers

theorem counters_reportAll (reports : List Report) :
    (log.reportAll reports).unknownOpcodes =
        log.unknownOpcodes + reports.countP Report.isUnknownOpcode ∧
      (log.reportAll reports).tones = log.tones + reports.countP Report.isTone := by
  induction reports generalizing log with
  | nil => exact ⟨rfl, rfl⟩
  | cons r rest ih =>
    obtain ⟨hunknown, htones⟩ := ih (log.report r)
    obtain ⟨hunknown', htones'⟩ := log.counters_report r
    rw [hunknown'] at hunknown
    rw [htones'] at htones
    have hcount (p : Report → Bool) :
        (r :: rest).countP p = (p r).toNat + rest.countP p := by
      rw [List.countP_cons, Nat.add_comm]
      cases p r <;> rfl
    rw [hcount, hcount, ← Nat.add_assoc, ← Nat.add_assoc]
    exact ⟨hunknown, htones⟩

end Log

end ChipEight
