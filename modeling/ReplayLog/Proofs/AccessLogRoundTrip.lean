import ReplayLog.Proofs.LoggedStatements
import ReplayLog.Proofs.SettledOutcomes

/-! # Reading back an access log

A log that is nothing but statements, each written with its header and its request stamp, gives one
record for every statement that no rule leaves out, in order. The statement of a record is what was
logged without the blanks at its ends. -/
namespace ReplayLog

namespace AccessLog

namespace LoggedStatement

def IsKept (st : LoggedStatement) : Prop :=
  st.sql.trim ≠ [] ∧ ¬" more".toList <:+ st.sql.trim ∧ ¬"SYNC".toList <+: st.sql.trim

instance (st : LoggedStatement) : Decidable st.IsKept :=
  inferInstanceAs (Decidable (_ ∧ _ ∧ _))

def line (st : LoggedStatement) (statement : Text) (east : Int) (schema : Text) : Text :=
  (Json.object [("convertSqlText".toList, .text statement),
    ("execTime".toList, .number (.integer (st.totalTime * 1000))),
    ("schema".toList, .text schema),
    ("session".toList, .text (st.client ++ st.thread)),
    ("startTime".toList, .number (.integer (st.startTime east))),
    ("user".toList, .text [])]).print

theorem layout_line (st : LoggedStatement) (east : Int) (schema : Text) :
    layout.line (st.record east schema) = st.line st.sql.trim east schema := by
  rfl

theorem firstRejection_eq_none_iff (st : LoggedStatement) :
    firstRejection rules st.sql.trim none = none ↔ st.IsKept := by
  rw [firstRejection_none_iff, Text.isBlankText_trim, IsKept, rules]
  simp only [List.forall_mem_cons, List.not_mem_nil, false_implies, implies_true, and_true,
    RejectionRule.cutShort, RejectionRule.check, Text.endsWith, ite_eq_right_iff, reduceCtorEq,
    imp_false, List.isSuffixOf_iff_suffix, List.isPrefixOf_iff_prefix]

theorem settles_outcome (sts : List LoggedStatement) (east : Int) (schema : Text) :
    Settles (fun st : LoggedStatement => st.outcome east schema) IsKept
      (fun st => st.record east schema) sts :=
  .of_reason (fun _ => rfl) fun st _ => firstRejection_eq_none_iff st

theorem filterMap_record?_outcome (sts : List LoggedStatement) (east : Int) (schema : Text) :
    (sts.map fun st => st.outcome east schema).filterMap Outcome.record? =
      (sts.filter fun st => st.IsKept).map fun st => st.record east schema :=
  (settles_outcome sts east schema).filterMap_record?

theorem length_filterMap_rejection?_outcome (sts : List LoggedStatement) (east : Int)
    (schema : Text) :
    ((sts.map fun st => st.outcome east schema).filterMap Outcome.rejection?).length =
      (sts.filter fun st => ¬st.IsKept).length :=
  (settles_outcome sts east schema).length_filterMap_rejection?

end LoggedStatement

/-- A source that holds logged statements and nothing else, read by settings under which the last
one counts as complete and all of them are within the limits. -/
structure Logs (s : Settings) (east : Int) (sts : List LoggedStatement) (b : BufferedSource) :
    Prop where
  dialect : s.dialect = .accessLog
  trailing : s.trailing = .emit
  zone : s.zone = .fixed east
  east : -86400 < east ∧ east < 86400
  valid : ∀ st ∈ sts, st.Valid
  lines_le : ∀ st ∈ sts, st.text.lines.length ≤ s.maxEntryLines
  bytes_le : ∀ st ∈ sts, st.text.byteSize ≤ s.maxEntryBytes
  bytes : b.shownBytes = Text.toUtf8 (sts.flatMap fun st => st.text ++ ['\n'])
  failure : b.shownFailure = none

variable {s : Settings} {east : Int} {sts : List LoggedStatement} {b : BufferedSource} {w : Writer}

/-- A run over logged statements settles their outcomes. -/
theorem Logs.run_outcomes (h : Logs s east sts b) (hw : w.sink.Unlimited) :
    let outcomes := sts.map fun st => st.outcome east s.schema
    ∃ p, s.run b w = (.ok (), p) ∧
      p.writer.sink.text = w.sink.text ++
        (outcomes.filterMap Outcome.record?).flatMap (fun r => layout.line r ++ ['\n']) ∧
      p.tally.written = (outcomes.filterMap Outcome.record?).length ∧
      p.tally.ignored = (outcomes.filterMap Outcome.rejection?).length ∧
      p.tally.seen = (outcomes.filterMap Outcome.record?).length +
        (outcomes.filterMap Outcome.rejection?).length := by
  intro outcomes
  have hwhole : ∀ t ∈ sts.map LoggedStatement.text,
      Whole (s.segmentRule boundary) boundary.opens t := by
    intro t ht
    obtain ⟨st, hst, rfl⟩ := List.mem_map.1 ht
    exact LoggedStatement.whole (h.valid st hst) (h.lines_le st hst) (h.bytes_le st hst)
  have hconvert : (sts.map LoggedStatement.text).map (convert s.zone s.schema) =
      outcomes.map .ok := by
    rw [List.map_map, List.map_map]
    apply List.map_congr_left
    intro st hst
    rw [Function.comp_apply, h.zone]
    exact LoggedStatement.convert_text (h.valid st hst) h.east s.schema
  have hbytes : b.shownBytes =
      Text.toUtf8 ((sts.map LoggedStatement.text).flatMap (· ++ ['\n'])) := by
    rw [h.bytes, List.flatMap_map]
  have hlines := BufferedSource.lines_texts s.encoding (fun t ht => (hwhole t ht).trimmed) hbytes
    h.failure
  have hrule : (s.segmentRule boundary).boundary = .marked boundary.opens := rfl
  obtain ⟨p, hrun, htext, hwritten, hignored, hseen⟩ :=
    Progress.takeFeed_wholes (.ofEntries layout (convert s.zone s.schema)) hrule h.trailing hwhole
      hconvert ⟨{}, w, #[]⟩ hw
  refine ⟨p, ?_, htext, ?_, ?_, ?_⟩
  · rw [Settings.run, Settings.takeSource, h.dialect]
    dsimp only
    rw [hlines, hrun]
  · exact hwritten.trans (Nat.zero_add _)
  · exact hignored.trans (Nat.zero_add _)
  · rw [hseen, Nat.zero_add]

/-- A run over logged statements writes one line for each statement that no rule leaves out, in
order, with the statement as it was logged without the blanks at its ends. -/
theorem run_logged_statements (h : Logs s east sts b) (hw : w.sink.Unlimited) :
    (s.run b w).1 = .ok () ∧
    (s.run b w).2.writer.sink.text = w.sink.text ++
      (sts.filter fun st => st.IsKept).flatMap
        (fun st => st.line st.sql.trim east s.schema ++ ['\n']) ∧
    (s.run b w).2.tally.written = (sts.filter fun st => st.IsKept).length ∧
    (s.run b w).2.tally.ignored = (sts.filter fun st => ¬st.IsKept).length ∧
    (s.run b w).2.tally.seen = sts.length := by
  obtain ⟨p, hrun, htext, hwritten, hignored, hseen⟩ := h.run_outcomes hw
  rw [LoggedStatement.filterMap_record?_outcome] at htext hwritten hseen
  rw [LoggedStatement.length_filterMap_rejection?_outcome] at hignored hseen
  rw [List.length_map] at hwritten hseen
  rw [hrun]
  refine ⟨rfl, ?_, hwritten, hignored, ?_⟩
  · rw [htext, List.flatMap_map]
    simp only [LoggedStatement.layout_line]
  · have hall := List.length_eq_length_filter_add (l := sts) fun st => decide st.IsKept
    rw [hseen, hall]
    simp

def sampleStatement (sql : String) : LoggedStatement where
  time := ⟨⟨2023, 2, 10, by decide, by decide, by decide, by decide⟩, 0, 3, 15, 398000⟩
  millis := 398
  level := "INFO".toList
  thread := "[pool-38-thread-255]".toList
  logger := "AccessLog.info".toList
  client := "Client=100.81.136.152".toList
  totalTime := 4
  rest := "Exec_time=4 Queue_time=0 -".toList
  request := "2023-02-10 00:03:15 398".toList
  id := "1000".toList
  sql := sql.toList
  suffix := "process=1\\;CLUSTER=a".toList

def sampleSettings : Settings := { dialect := .accessLog, trailing := .emit, zone := .fixed 0 }

def sampleLog (sqls : List String) : BufferedSource :=
  .ofSource 64 (.ofReads [Text.toUtf8 ((sqls.map sampleStatement).flatMap fun st =>
    st.text ++ ['\n'])] none)

theorem logs_sampleLog (sqls : List String)
    (hsqls : ∀ sql ∈ sqls, sql ∈ [" select 1", "select a\nfrom b", "SYNC 7"]) :
    Logs sampleSettings 0 (sqls.map sampleStatement) (sampleLog sqls) := by
  have hsamples : ∀ sql ∈ [" select 1", "select a\nfrom b", "SYNC 7"],
      (sampleStatement sql).Valid ∧ (sampleStatement sql).text.lines.length ≤ 1000000 ∧
        (sampleStatement sql).text.byteSize ≤ 256 * 1024 * 1024 := by
    intro sql hsql
    simp only [List.mem_cons, List.not_mem_nil, or_false] at hsql
    rcases hsql with rfl | rfl | rfl
    all_goals
      refine ⟨⟨by decide, ⟨by decide, by decide, by decide, by decide, by decide, by decide⟩,
        by decide, by decide, by decide +kernel, by decide, by decide, by decide +kernel,
        by decide +kernel, by decide +kernel⟩, by decide +kernel, by decide +kernel⟩
  have hall {P : LoggedStatement → Prop}
      (h : ∀ sql ∈ [" select 1", "select a\nfrom b", "SYNC 7"], P (sampleStatement sql)) :
      ∀ st ∈ sqls.map sampleStatement, P st := by
    intro st hst
    obtain ⟨sql, hsql, rfl⟩ := List.mem_map.1 hst
    exact h sql (hsqls sql hsql)
  refine ⟨rfl, rfl, rfl, by decide, hall fun sql h => (hsamples sql h).1,
    hall fun sql h => (hsamples sql h).2.1, hall fun sql h => (hsamples sql h).2.2, ?_, rfl⟩
  exact (BufferedSource.shown_ofReads (by decide) _ _).1.trans (List.flatten_singleton)

/-- A space before a statement is not written. -/
theorem run_sampleLog_ne :
    Logs sampleSettings 0 [sampleStatement " select 1"] (sampleLog [" select 1"]) ∧
    (sampleStatement " select 1").sql ≠ [] ∧
    ¬" more".toList <:+ (sampleStatement " select 1").sql ∧
    ¬"SYNC".toList <+: (sampleStatement " select 1").sql ∧
    (sampleSettings.run (sampleLog [" select 1"]) ⟨{}, 1, 0⟩).2.writer.sink.text ≠
      (sampleStatement " select 1").line (sampleStatement " select 1").sql 0
        sampleSettings.schema ++ ['\n'] := by
  have hlogs := logs_sampleLog [" select 1"] (by decide)
  have hunlimited : (⟨{}, 1, 0⟩ : Writer).sink.Unlimited := ⟨rfl, rfl⟩
  refine ⟨hlogs, by decide, by decide, by decide, ?_⟩
  obtain ⟨p, hrun, htext, -⟩ := hlogs.run_outcomes hunlimited
  rw [hrun, htext, LoggedStatement.filterMap_record?_outcome]
  decide +kernel

/-- The statements are written without the space before the first one, and the last one is left
out. -/
theorem run_logged_statements_sampleLog :
    let sqls := [" select 1", "select a\nfrom b", "SYNC 7"]
    let sts := sqls.map sampleStatement
    let run := sampleSettings.run (sampleLog sqls) ⟨{}, 1, 0⟩
    Logs sampleSettings 0 sts (sampleLog sqls) ∧ (⟨{}, 1, 0⟩ : Writer).sink.Unlimited ∧
      run.1 = .ok () ∧
      run.2.writer.sink.text = (sts.filter fun st => st.IsKept).flatMap
        (fun st => st.line st.sql.trim 0 sampleSettings.schema ++ ['\n']) ∧
      run.2.tally.written = 2 ∧ run.2.tally.ignored = 1 ∧ run.2.tally.seen = 3 := by
  have hlogs := logs_sampleLog [" select 1", "select a\nfrom b", "SYNC 7"] (by decide)
  have hunlimited : (⟨{}, 1, 0⟩ : Writer).sink.Unlimited := ⟨rfl, rfl⟩
  obtain ⟨hresult, htext, hwritten, hignored, hseen⟩ := run_logged_statements hlogs hunlimited
  exact ⟨hlogs, hunlimited, hresult, htext, hwritten.trans (by decide), hignored.trans (by decide),
    hseen⟩

end AccessLog
end ReplayLog
