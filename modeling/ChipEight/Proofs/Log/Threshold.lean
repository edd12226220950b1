import ChipEight.Proofs.Log.Ledger

/-!
The threshold of a log is a filter. Of two logs that are told the same, the one with the
higher threshold prints what the other one prints, less the messages below its threshold,
and counts the same. With time stamps, the messages below the threshold do not reach for
the clock either.
-/

namespace ChipEight

namespace Level

def names : List String := ["DEBUG", "INFO", "WARNING", "ERROR", "CRITICAL"]

/-- The place of a level among the names, in whatever letters it is written. All other
levels have the place of `INFO`. -/
def rank (level : String) : Nat := (names.idxOf? (capitals level)).getD (names.idxOf "INFO")

theorem rank_of_notMem {level : String} (h : capitals level ∉ names) :
    rank level = rank "INFO" := by
  have hnone : names.idxOf? (capitals level) = none := List.idxOf?_eq_none_iff.2 h
  rw [rank, hnone]
  decide

/-- The severity of a level is its rank. -/
theorem severity_eq_rank (level : String) : severity level = rank level := by
  unfold severity
  split
  case h_6 hdebug hinfo hwarning herror hcritical =>
    have hnone : capitals level ∉ names := by
      simp only [names, List.mem_cons, List.not_mem_nil, or_false, not_or]
      exact ⟨hdebug, hinfo, hwarning, herror, hcritical⟩
    rw [rank_of_notMem hnone]
    decide
  all_goals
    rename_i hname
    rw [rank, hname]
    decide

theorem capital_toLower (c : Char) : capital c.toLower = capital c := by
  by_cases hupper : 'A'.val ≤ c.val ∧ c.val ≤ 'Z'.val
  · have hletters : ∀ i : Fin 26, capital (Char.ofNat (65 + i)).toLower =
        capital (Char.ofNat (65 + i)) := by decide
    have hfirst : 65 ≤ c.toNat := UInt32.le_iff_toNat_le.1 hupper.1
    have hlast : c.toNat ≤ 90 := UInt32.le_iff_toNat_le.1 hupper.2
    have hletter := hletters ⟨c.toNat - 65, by omega⟩
    have hplace : 65 + (c.toNat - 65) = c.toNat := by omega
    rwa [hplace, Char.ofNat_toNat] at hletter
  · have hself : c.toLower = c := dif_neg hupper
    rw [hself]

/-- Two levels that are the same but for capitals have the same rank. -/
theorem rank_eq_of_toLower_eq {level other : String} (h : level.toLower = other.toLower) :
    rank level = rank other := by
  have hcapitals (s : String) : capitals s = String.ofList (s.toLower.toList.map capital) := by
    have hlower : s.toLower.toList = s.toList.map Char.toLower := String.toList_map
    have hcapital : capital ∘ Char.toLower = capital := funext capital_toLower
    rw [hlower, List.map_map, hcapital, capitals]
  rw [rank, rank, hcapitals, hcapitals, h]

end Level

def Message.sessionLine (seconds : Float) : Message :=
  ⟨"INFO", "Session ended after " ++ Text.fixedPlaces 1 seconds ++ "s"⟩

/-- Whether two messages of a report are the same, leaving aside the time in a summary. -/
inductive Message.Alike (r : Report) : Message → Message → Prop
  | same (m : Message) : Alike r m m
  | timed (seconds seconds' : Float) (h : r.isSummary = true) :
      Alike r (.sessionLine seconds) (.sessionLine seconds')

theorem Message.Alike.level_eq {r : Report} {m m' : Message} (h : Alike r m m') :
    m.level = m'.level := by
  cases h <;> rfl

/-- Whether two entries are the same, leaving aside the time in a summary. -/
def Entry.Alike (e e' : Entry) : Prop :=
  e.report = e'.report ∧ e.message.Alike e.report e'.message

namespace Log

theorem shows_eq (log : Log) (level : String) :
    log.shows level = decide (Level.rank log.style.threshold ≤ Level.rank level) := by
  rw [shows, Level.severity_eq_rank, Level.severity_eq_rank]

/-- Two logs with the same counters that differ in their thresholds, besides what they
printed and what their clocks say. The threshold of the second one is at least as severe. -/
structure Peers (threshold : String) (low high : Log) : Prop where
  style : high.style = { low.style with threshold := threshold }
  unknownOpcodes : high.unknownOpcodes = low.unknownOpcodes
  tones : high.tones = low.tones
  reaches : Level.rank low.style.threshold ≤ Level.rank threshold

namespace Peers

variable {threshold : String} {low high : Log} (h : Peers threshold low high)

include h

theorem report (r : Report) : Peers threshold (low.report r) (high.report r) where
  style := by rw [(high.style_report r).1, (low.style_report r).1, h.style]
  unknownOpcodes := by
    rw [(high.counters_report r).1, (low.counters_report r).1, h.unknownOpcodes]
  tones := by rw [(high.counters_report r).2, (low.counters_report r).2, h.tones]
  reaches := by
    rw [(low.style_report r).1]
    exact h.reaches

/-- Only a summary looks at the log, and there at its counters and at the time. -/
theorem messages (r : Report) : List.Forall₂ (Message.Alike r)
    ((high.count r).messages r) ((low.count r).messages r) := by
  have hsame (messages : List Message) : List.Forall₂ (Message.Alike r) messages messages :=
    List.forall₂_same.2 fun m _ => .same m
  cases r with
  | sessionEnd pairs =>
    have hopening : List.Forall₂ (Message.Alike (.sessionEnd pairs))
        [⟨"INFO", ruler⟩, .sessionLine high.elapsed] [⟨"INFO", ruler⟩, .sessionLine low.elapsed] :=
      .cons (.same _) (.cons (.timed _ _ rfl) .nil)
    show List.Forall₂ (Message.Alike (.sessionEnd pairs)) (_ ++ _ ++
      [⟨"INFO", "  unknown opcodes: " ++ toString high.unknownOpcodes⟩,
        ⟨"INFO", "  tones: " ++ toString high.tones⟩, _]) _
    -- with the same counters only the opening can differ, and there only the time
    rw [h.unknownOpcodes, h.tones]
    exact List.rel_append (List.rel_append hopening (hsame _)) (hsame _)
  | _ => exact hsame _

/-- The log with the higher threshold prints what the other one prints of a report and its
own threshold lets through. -/
theorem emitted (r : Report) : List.Forall₂ (Message.Alike r) (high.emitted r)
    ((low.emitted r).filter fun m => decide (Level.rank threshold ≤ Level.rank m.level)) := by
  have hfilter : (low.emitted r).filter
      (fun m => decide (Level.rank threshold ≤ Level.rank m.level)) =
        ((low.count r).messages r).filter
          fun m => decide (Level.rank threshold ≤ Level.rank m.level) := by
    rw [Log.emitted, List.filter_filter]
    congr 1
    funext m
    rw [low.shows_eq, ← Bool.decide_and, decide_eq_decide]
    -- what the lower threshold stops, the higher one stops too
    have hreaches := h.reaches
    omega
  rw [hfilter]
  refine List.rel_filter ?_ (h.messages r)
  intro m m' halike
  show high.shows m.level = true ↔ _
  rw [high.shows_eq, h.style, halike.level_eq]

theorem ledger (reports : List Report) : List.Forall₂ Entry.Alike (high.ledger reports)
    ((low.ledger reports).filter
      fun e => decide (Level.rank threshold ≤ Level.rank e.message.level)) := by
  induction reports generalizing low high with
  | nil => exact .nil
  | cons r rest ih =>
    rw [Log.ledger, Log.ledger, List.filter_append, List.filter_map]
    refine List.rel_append ?_ (ih (h.report r))
    rw [List.forall₂_map_left_iff, List.forall₂_map_right_iff]
    exact (h.emitted r).imp fun m m' halike => ⟨rfl, halike⟩

end Peers

/-- Of two logs that are told the same, one prints what the other one prints and its own
threshold lets through: the same messages in the same order and in the same lines, leaving
aside the time in a summary. Both count the same. -/
structure Filters (low high : Log) (reports : List Report) : Prop where
  unknownOpcodes : (high.reportAll reports).unknownOpcodes = (low.reportAll reports).unknownOpcodes
  tones : (high.reportAll reports).tones = (low.reportAll reports).tones
  messages : List.Forall₂ Entry.Alike (high.ledger reports) ((low.ledger reports).filter
    fun e => decide (Level.rank high.style.threshold ≤ Level.rank e.message.level))
  low_printed : (low.reportAll reports).printed.toList =
    (low.ledger reports).map fun e => low.line e.message
  high_printed : (high.reportAll reports).printed.toList =
    (high.ledger reports).map fun e => low.line e.message

theorem Peers.filters {threshold : String} {low high : Log} (h : Peers threshold low high)
    (hstamped : low.style.stamped = false) (hlow : low.printed = #[]) (hhigh : high.printed = #[])
    (reports : List Report) : Filters low high reports where
  unknownOpcodes := by
    rw [(high.counters_reportAll reports).1, (low.counters_reportAll reports).1, h.unknownOpcodes]
  tones := by rw [(high.counters_reportAll reports).2, (low.counters_reportAll reports).2, h.tones]
  messages := by
    rw [h.style]
    exact h.ledger reports
  low_printed := by
    rw [printed_reportAll hstamped, hlow]
    rfl
  high_printed := by
    have hstamped' : high.style.stamped = false := by rw [h.style, hstamped]
    have hline : high.line = low.line := by
      funext m
      rw [line_unstamped hstamped', line_unstamped hstamped, badge, badge, h.style]
    rw [printed_reportAll hstamped', hhigh, hline]
    rfl

/-- How a new log that stamps its messages reads the clock: once when it is opened, once for
each line that it prints and once for each summary. What it is told next takes the next
readings, and a message below the threshold leaves the log as it is. -/
structure Metered (style : LogStyle) (clock : Clock) (reports : List Report) : Prop where
  opened : (create style clock).started = clock.now ∧ (create style clock).clock = clock.advance
  taken : ((create style clock).reportAll reports).clock = clock.after
    (1 + ((create style clock).reportAll reports).printed.size + reports.countP Report.isSummary)
  next (r : Report) : ((create style clock).reportAll reports).Stamps r
  suppressed (m : Message) : Level.rank m.level < Level.rank style.threshold →
    ((create style clock).reportAll reports).report (.message m) =
      (create style clock).reportAll reports

theorem metered_create {style : LogStyle} (hstamped : style.stamped = true) (clock : Clock)
    (reports : List Report) : Metered style clock reports where
  opened := ⟨rfl, rfl⟩
  taken := by
    have hclock := @clock_reportAll (create style clock) hstamped reports
    have hsize := (create style clock).size_printed_reportAll reports
    have hempty : (create style clock).printed.size = 0 := rfl
    have hadvance : (create style clock).clock = clock.after 1 := rfl
    rw [hclock, hadvance, Clock.after_after]
    congr 1
    omega
  next r := by
    have hstyle := ((create style clock).style_reportAll reports).1
    exact stamps_report (by rw [hstyle]; exact hstamped) r
  suppressed m hbelow := by
    have hstyle := ((create style clock).style_reportAll reports).1
    have hshows : ((create style clock).reportAll reports).shows m.level = false := by
      rw [shows_eq, hstyle]
      exact decide_eq_false (Nat.not_le_of_lt hbelow)
    rw [report_message, put_of_not_shows _ hshows]

/-- The threshold of a log is a filter. Levels are compared by rank, in whatever letters they
are written, and an unknown one counts as `INFO`. Without time stamps a log with a higher
threshold prints what is left of what a log with a lower one prints. With time stamps the
clock is not read for what is not printed. -/
theorem threshold_filters (style : LogStyle) (threshold : String) (clock clock' : Clock)
    (reports : List Report) :
    ((∀ level other : String, level.toLower = other.toLower →
        Level.rank level = Level.rank other) ∧
      ∀ level, Level.capitals level ∉ Level.names → Level.rank level = Level.rank "INFO") ∧
    (style.stamped = false → Level.rank style.threshold ≤ Level.rank threshold →
      Filters (create style clock) (create { style with threshold := threshold } clock')
        reports) ∧
    (style.stamped = true → Metered style clock reports) := by
  refine ⟨⟨?_, ?_⟩, ?_, ?_⟩
  · exact fun level other h => Level.rank_eq_of_toLower_eq h
  · exact fun level h => Level.rank_of_notMem h
  · intro hstamped hreaches
    have hpeers : Peers threshold (create style clock)
        (create { style with threshold := threshold } clock') := ⟨rfl, rfl, rfl, hreaches⟩
    exact hpeers.filters hstamped rfl rfl reports
  · exact fun hstamped => metered_create hstamped clock reports

def shortSession : List Report :=
  [.tone 0x200, .message ⟨"verbose", "ready"⟩, .unknownOpcode "Unknown opcode 0xFFFF at 0x202",
    .sessionEnd []]

/-- The levels of what a log prints of the short session. -/
theorem levels_shortSession (log : Log) :
    (log.ledger shortSession).map (fun e => e.message.level) =
      ["DEBUG", "verbose", "WARNING", "INFO", "INFO", "INFO", "INFO", "INFO"].filter log.shows := by
  have hlevels (log : Log) (r : Report) : (log.emitted r).map (fun m => m.level) =
      (((log.count r).messages r).map fun m => m.level).filter log.shows := by
    rw [emitted, List.filter_map]
    rfl
  have hshows (log : Log) (r : Report) : (log.report r).shows = log.shows :=
    (log.shows_reportAll [r]).1
  simp only [shortSession, ledger, List.map_append, List.map_map, Function.comp_def, hlevels,
    hshows, List.append_nil]
  rw [← List.filter_append, ← List.filter_append, ← List.filter_append]
  rfl

def talkative : LogStyle := { name := "vm", threshold := "debug", stamped := false }

def stamping : LogStyle := { name := "vm", threshold := "loud" }

/-- At `Warning` one message of the short session is left. With time stamps and a threshold that
counts as `INFO`, seven of its messages are printed, and the clock is read nine times. -/
theorem threshold_filters_shortSession :
    Filters (create talkative (Clock.ofList []))
        (create { talkative with threshold := "Warning" } (Clock.ofList [])) shortSession ∧
      ((create { talkative with threshold := "Warning" } (Clock.ofList [])).reportAll
        shortSession).printed.size = 1 ∧
      ((create stamping (Clock.ofList [])).reportAll shortSession).clock.taken = 9 := by
  have hledger (log : Log) : (log.ledger shortSession).length =
      (["DEBUG", "verbose", "WARNING", "INFO", "INFO", "INFO", "INFO", "INFO"].filter
        log.shows).length := by
    rw [← levels_shortSession, List.length_map]
  obtain ⟨-, hfilters, -⟩ := threshold_filters talkative "Warning" (Clock.ofList [])
    (Clock.ofList []) shortSession
  obtain ⟨-, -, hmetered⟩ := threshold_filters stamping "Warning" (Clock.ofList [])
    (Clock.ofList []) shortSession
  refine ⟨hfilters rfl (by decide), ?_, ?_⟩
  · rw [size_printed_reportAll, hledger]
    rfl
  · rw [(hmetered rfl).taken, size_printed_reportAll, hledger]
    rfl

end Log

end ChipEight
