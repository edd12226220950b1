import ChipEight.Proofs.Log.Reports

/-!
The messages that a log prints, report by report. A log without time stamps prints a
message as the same line at any time. A log with time stamps takes a reading of its clock
for each message it prints, in their order, and before them one more for a summary. A
message that is not shown takes none.
-/

namespace ChipEight

def Clock.after (c : Clock) (n : Nat) : Clock := { c with taken := c.taken + n }

theorem Clock.after_after (c : Clock) (m n : Nat) : (c.after m).after n = c.after (m + n) := by
  simp only [Clock.after, Nat.add_assoc]

/-- A message and the report that it belongs to. -/
structure Entry where
  report : Report
  message : Message

namespace Log

variable (log : Log)

def emitted (r : Report) : List Message :=
  ((log.count r).messages r).filter fun m => log.shows m.level

def ledger (log : Log) : List Report → List Entry
  | [] => []
  | r :: rest => (log.emitted r).map (Entry.mk r) ++ (log.report r).ledger rest

/-- The lines of messages that take the readings from the one with number `n` on. -/
def linesFrom (n : Nat) (messages : List Message) : List String :=
  (messages.zipIdx n).map fun p =>
    { log with clock := { log.clock with taken := p.2 } : Log }.line p.1

/-- A report takes the next reading if it is a summary, and then one for each message that is
printed, which has it for its time stamp. -/
structure Stamps (r : Report) : Prop where
  clock : (log.report r).clock = log.clock.after (r.isSummary.toNat + (log.emitted r).length)
  printed : (log.report r).printed.toList = log.printed.toList ++
    log.linesFrom (log.clock.taken + r.isSummary.toNat) (log.emitted r)

/-- Each message of the ledger is one line. -/
theorem size_printed_reportAll (reports : List Report) : (log.reportAll reports).printed.size =
    log.printed.size + (log.ledger reports).length := by
  induction reports generalizing log with
  | nil => rfl
  | cons r rest ih =>
    obtain ⟨lines, clock, hreport, hlines⟩ := log.exists_report_eq r
    have hlength : (log.emitted r).length = lines.size := hlines.length_eq
    have hsize : (log.report r).printed.size = log.printed.size + lines.size := by
      rw [hreport, Array.size_append]
    rw [reportAll_cons, ih, hsize, ledger, List.length_append, List.length_map, hlength]
    omega

section Unstamped

variable {log} (hstamped : log.style.stamped = false)

include hstamped

theorem line_unstamped (m : Message) :
    log.line m = log.badge m.level ++ "[" ++ log.style.name ++ "] " ++ m.text := by
  have hstamp : log.stamp = "" := by
    rw [stamp, hstamped]
    exact if_neg Bool.false_ne_true
  rw [line, hstamp, String.empty_append]

theorem eq_line_of_shows {m : Message} {line : String} (h : log.Shows m line) :
    line = log.line m := by
  obtain ⟨clock, rfl⟩ := h
  have hline := @line_unstamped { log with clock := clock } hstamped m
  exact hline.trans (line_unstamped hstamped m).symm

theorem line_report (r : Report) : (log.report r).line = log.line := by
  have hstyle := (log.style_report r).1
  funext m
  rw [line_unstamped (by rw [hstyle, hstamped]) m, line_unstamped hstamped, badge, badge, hstyle]

theorem printed_report (r : Report) :
    (log.report r).printed.toList = log.printed.toList ++ (log.emitted r).map log.line := by
  obtain ⟨lines, clock, hreport, hlines⟩ := log.exists_report_eq r
  have hmap : lines.toList = (log.emitted r).map log.line := by
    symm
    rw [← List.forall₂_eq_eq_eq, List.forall₂_map_left_iff]
    exact hlines.imp fun m line hline => (eq_line_of_shows hstamped hline).symm
  rw [hreport, Array.toList_append, hmap]

/-- Each message of the ledger is a line behind what was printed before. -/
theorem printed_reportAll (reports : List Report) : (log.reportAll reports).printed.toList =
    log.printed.toList ++ (log.ledger reports).map fun e => log.line e.message := by
  induction reports generalizing log with
  | nil => exact (List.append_nil _).symm
  | cons r rest ih =>
    have hrest := ih (by rw [(log.style_report r).1, hstamped])
    rw [line_report hstamped, printed_report hstamped, List.append_assoc] at hrest
    rw [reportAll_cons, hrest, ledger, List.map_append, List.map_map]
    rfl

end Unstamped

theorem put_of_not_shows {m : Message} (h : log.shows m.level = false) : log.put m = log := by
  rw [put, h]
  rfl

theorem report_message (m : Message) : log.report (.message m) = log.put m := rfl

section Stamped

variable {log} (hstamped : log.style.stamped = true)

include hstamped

theorem put_of_shows {m : Message} (h : log.shows m.level = true) : log.put m =
    { log with printed := log.printed.push (log.line m), clock := log.clock.advance } := by
  rw [put, h, hstamped]
  rfl

/-- The messages that are shown take the next readings, one after the other. -/
theorem putAll_stamped (messages : List Message) :
    (log.putAll messages).clock =
        log.clock.after (messages.filter fun m => log.shows m.level).length ∧
      (log.putAll messages).printed.toList = log.printed.toList ++
        log.linesFrom log.clock.taken (messages.filter fun m => log.shows m.level) := by
  induction messages generalizing log with
  | nil => exact ⟨rfl, (List.append_nil _).symm⟩
  | cons m rest ih =>
    have hput : log.putAll (m :: rest) = (log.put m).putAll rest := rfl
    cases hshows : log.shows m.level with
    | false =>
      rw [hput, log.put_of_not_shows hshows, List.filter_cons_of_neg (by simp [hshows])]
      exact ih hstamped
    | true =>
      have hnext := put_of_shows hstamped hshows
      have hshown : (m :: rest).filter (fun m => log.shows m.level) =
          m :: rest.filter fun m => log.shows m.level := List.filter_cons_of_pos hshows
      obtain ⟨hclock, hprinted⟩ := @ih (log.put m) (by rw [hnext]; exact hstamped)
      rw [hput, hclock, hprinted, hnext, hshown, List.length_cons]
      -- the message has the next reading, so the others begin one reading later
      constructor
      · rw [Nat.add_comm]
        exact log.clock.after_after 1 _
      · rw [Array.toList_push, List.append_assoc]
        rfl

/-- A summary takes a reading before its messages take theirs. -/
theorem stamps_report (r : Report) : log.Stamps r := by
  have hclock : ((log.count r).consult r).clock = log.clock.after r.isSummary.toNat := by
    cases r <;> rfl
  -- neither a count nor a summary's own reading changes what lines are made of
  have hsame : ((log.count r).consult r).style = log.style ∧
      ((log.count r).consult r).printed = log.printed ∧
      ((log.count r).consult r).linesFrom = log.linesFrom := by
    cases r <;> exact ⟨rfl, rfl, rfl⟩
  obtain ⟨hstyle, hprinted, hlines⟩ := hsame
  have hshows : ((log.count r).consult r).shows = log.shows := by
    unfold shows
    rw [hstyle]
  obtain ⟨hput, hput'⟩ := @putAll_stamped ((log.count r).consult r)
    (by rw [hstyle]; exact hstamped) ((log.count r).messages r)
  rw [hclock, hshows, Clock.after_after] at hput
  rw [hclock, hshows, hprinted, hlines] at hput'
  exact ⟨hput, hput'⟩

/-- The readings that a log takes are those for the messages of its ledger and those for
summaries. -/
theorem clock_reportAll (reports : List Report) : (log.reportAll reports).clock =
    log.clock.after ((log.ledger reports).length + reports.countP Report.isSummary) := by
  induction reports generalizing log with
  | nil => rfl
  | cons r rest ih =>
    have hrest := @ih (log.report r) (by rw [(log.style_report r).1, hstamped])
    rw [reportAll_cons, hrest, (stamps_report hstamped r).clock, Clock.after_after, ledger,
      List.length_append, List.length_map, List.countP_cons]
    have hone : (if r.isSummary = true then 1 else 0) = r.isSummary.toNat := by
      cases r.isSummary <;> rfl
    rw [hone]
    congr 1
    omega

end Stamped

end Log

end ChipEight
