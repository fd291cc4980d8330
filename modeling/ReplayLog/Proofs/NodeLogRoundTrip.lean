import ReplayLog.Proofs.NodeStatements
import ReplayLog.Proofs.SettledOutcomes

/-! # Reading back a log of a compute node

A log that is nothing but statements, each written with its client, its parameters and its metrics,
gives one record for every statement that no rule leaves out, in order, with all that was logged of
it. -/
namespace ReplayLog.NodeLog

namespace LoggedStatement

/-- No rule leaves the statement out: its placeholders have values, and the log did not cut it
short. -/
def IsKept (st : LoggedStatement) : Prop :=
  ¬('?' ∈ st.sql ∧ st.parameters = "[]".toList) ∧ ¬" more".toList <:+ st.sql

instance (st : LoggedStatement) : Decidable st.IsKept := inferInstanceAs (Decidable (_ ∧ _))

def line (st : LoggedStatement) (east : Int) : Text :=
  (Json.object ([("startTime".toList, .number (.integer (st.startTime east))),
    ("user".toList, .text st.user),
    ("session".toList, .text (st.host ++ ':' :: st.port)),
    ("schema".toList, .text st.schema),
    ("execTime".toList, .number (.integer (st.responseTime * 1000))),
    ("convertSqlText".toList, .text st.sql)] ++
    if st.parameters = "[]".toList then [] else [("parameter".toList, .text st.parameters)])).print

variable {st : LoggedStatement}

theorem layout_line (h : st.Valid) (east : Int) : layout.line (st.record east) = st.line east := by
  have hempty : ¬st.parameters.isEmpty = true := by simpa using h.parameters_ne_nil
  rw [line, record, parameter?]
  split
  · rfl
  · have hvalue : layout.value? ⟨st.sql, st.startTime east, st.host ++ ':' :: st.port,
        st.responseTime * 1000, st.schema, some st.user, some st.parameters⟩ .parameter =
        some (.text st.parameters) := if_neg hempty
    have hmembers (r : Record) : layout.members r =
        layout.addField r ([.startTime, .user, .session, .schema, .execTime, .statement].foldl
          (layout.addField r) []) .parameter := rfl
    rw [Layout.line, hmembers, Layout.addField, hvalue]
    rfl

theorem firstRejection_eq_none_iff (h : st.Valid) :
    firstRejection rules st.sql (parameter? st.parameters) = none ↔ st.IsKept := by
  have hblank : st.sql.isBlankText = false := by
    rw [← h.sql_trim, Text.isBlankText_trim, h.sql_trim]
    exact h.sql_ne_nil
  have hvalues : ((parameter? st.parameters).getD []).isEmpty = true ↔
      st.parameters = "[]".toList := by
    rw [parameter?]
    split
    · next hnone => simp [hnone]
    · next hsome => exact iff_of_false (by simpa using h.parameters_ne_nil) hsome
  rw [firstRejection_none_iff, and_iff_right hblank, rules, IsKept]
  simp only [List.forall_mem_cons, List.not_mem_nil, false_implies, implies_true, and_true,
    RejectionRule.questionMarks, RejectionRule.cutShort, RejectionRule.check, Text.endsWith,
    ite_eq_right_iff, reduceCtorEq, imp_false, List.isSuffixOf_iff_suffix, Bool.and_eq_true,
    List.contains_iff_mem, hvalues]

theorem settles_outcome {sts : List LoggedStatement} (h : ∀ st ∈ sts, st.Valid) (east : Int) :
    Settles (fun st : LoggedStatement => st.outcome east) IsKept (fun st => st.record east) sts :=
  .of_reason (fun _ => rfl) fun st hst => firstRejection_eq_none_iff (h st hst)

end LoggedStatement

/-- A source that holds logged statements and nothing else, read by settings under which the last
one counts as complete and all of them are within the limits. -/
structure Logs (s : Settings) (east : Int) (sts : List LoggedStatement) (b : BufferedSource) :
    Prop where
  dialect : s.dialect = .nodeLog
  trailing : s.trailing = .emit
  zone : s.zone = .fixed east
  east : -86400 < east ∧ east < 86400
  valid : ∀ st ∈ sts, st.Valid
  lines_le : ∀ st ∈ sts, st.text.lines.length ≤ s.maxEntryLines
  bytes_le : ∀ st ∈ sts, st.text.byteSize ≤ s.maxEntryBytes
  bytes : b.shownBytes = Text.toUtf8 (sts.flatMap fun st => st.text ++ ['\n'])
  failure : b.shownFailure = none

variable {s : Settings} {east : Int} {sts : List LoggedStatement} {b : BufferedSource} {w : Writer}

/-- A run over logged statements writes one line for each statement that no rule leaves out, in
order, with all that was logged of it. -/
theorem run_node_statements (h : Logs s east sts b) (hw : w.sink.Unlimited) :
    (s.run b w).1 = .ok () ∧
    (s.run b w).2.writer.sink.text = w.sink.text ++
      (sts.filter fun st => st.IsKept).flatMap (fun st => st.line east ++ ['\n']) ∧
    (s.run b w).2.tally.written = (sts.filter fun st => st.IsKept).length ∧
    (s.run b w).2.tally.ignored = (sts.filter fun st => ¬st.IsKept).length ∧
    (s.run b w).2.tally.seen = sts.length := by
  have hwhole : ∀ t ∈ sts.map LoggedStatement.text,
      Whole (s.segmentRule boundary) boundary.opens t := by
    intro t ht
    obtain ⟨st, hst, rfl⟩ := List.mem_map.1 ht
    exact LoggedStatement.whole (h.valid st hst) (h.lines_le st hst) (h.bytes_le st hst)
  have hbytes : b.shownBytes =
      Text.toUtf8 ((sts.map LoggedStatement.text).flatMap (· ++ ['\n'])) := by
    rw [h.bytes, List.flatMap_map]
  have hlines := BufferedSource.lines_texts s.encoding (fun t ht => (hwhole t ht).trimmed) hbytes
    h.failure
  have hrule : (s.segmentRule boundary).boundary = .marked boundary.opens := rfl
  obtain ⟨harrivals, hending⟩ := Feed.ofEntries_wholes hrule h.trailing hwhole
  have hconvert : ((Feed.ofEntries (s.segmentRule boundary) (b.lines s.encoding)).arrivals.map
      Arrival.entry).map (convert s.zone) = sts.map fun st => .ok (st.outcome east) := by
    rw [hlines, harrivals, List.map_map]
    apply List.map_congr_left
    intro st hst
    rw [Function.comp_apply, h.zone]
    exact LoggedStatement.convert_text (h.valid st hst) h.east
  rw [← hlines] at hending
  obtain ⟨p, hrun, htext, hwritten, hignored, hseen⟩ :=
    Progress.takeFeed_settled (.ofEntries layout (convert s.zone)) hending
      (LoggedStatement.settles_outcome h.valid east) hconvert ⟨{}, w, #[]⟩ hw
  have hp : s.run b w = (.ok (), p) := by
    rw [Settings.run, Settings.takeSource, h.dialect]
    exact hrun
  rw [hp]
  refine ⟨rfl, ?_, ?_, ?_, ?_⟩
  · rw [htext]
    refine congrArg _ (List.flatMap_congr fun st hst => ?_)
    rw [← LoggedStatement.layout_line (h.valid st (List.mem_of_mem_filter hst))]
    rfl
  · exact hwritten.trans (Nat.zero_add _)
  · exact hignored.trans (Nat.zero_add _)
  · exact hseen.trans (Nat.zero_add _)

def sampleStatement (sql : String × String) : LoggedStatement where
  time := ⟨⟨2022, 4, 29, by decide, by decide, by decide, by decide⟩, 16, 1, 36, 670000⟩
  millis := 670
  user := "u".toList
  host := "10.181.88.16".toList
  port := "40952".toList
  schema := []
  flags := " [TDDL] [V3]".toList
  sqlLength := "18".toList
  sql := sql.1.toList
  parametersLength := "2".toList
  parameters := sql.2.toList
  responseTime := 274
  rest := "rows=106] # [rt= 143786862cc10000 [len=1]".toList

/-- Statements with near misses of marks, one of them without values for its placeholder. -/
def sampleSqls : List (String × String) :=
  [("select '# [len=]'\nfrom t", "[]"), ("select ? # [rt", "[42]"), ("select ?", "[]")]

def sampleSettings : Settings := { dialect := .nodeLog, trailing := .emit, zone := .fixed 0 }

def sampleLog : BufferedSource :=
  .ofSource 64 (.ofReads [Text.toUtf8 ((sampleSqls.map sampleStatement).flatMap fun st =>
    st.text ++ ['\n'])] none)

theorem logs_sampleLog : Logs sampleSettings 0 (sampleSqls.map sampleStatement) sampleLog := by
  have hsamples : ∀ sql ∈ sampleSqls, (sampleStatement sql).Valid ∧
      (sampleStatement sql).text.lines.length ≤ 1000000 ∧
        (sampleStatement sql).text.byteSize ≤ 256 * 1024 * 1024 := by
    intro sql hsql
    simp only [sampleSqls, List.mem_cons, List.not_mem_nil, or_false] at hsql
    have hclient (sql : String × String) : ∀ t ∈ [(sampleStatement sql).user,
        (sampleStatement sql).host, (sampleStatement sql).port, (sampleStatement sql).schema],
        ∀ c ∈ t, isBlank c = false ∧ c ∉ [',', '=', ']'] := by
      simp only [sampleStatement, List.forall_mem_cons, List.not_mem_nil, false_implies, implies_true,
        and_true]
      exact ⟨forall_mem_of_all (by decide), forall_mem_of_all (by decide),
        forall_mem_of_all (by decide)⟩
    rcases hsql with rfl | rfl | rfl
    all_goals
      refine ⟨⟨by decide, ⟨by decide, by decide, by decide, by decide, by decide, by decide⟩,
        hclient _, by decide +kernel, by decide, by decide, by decide +kernel,
        by decide +kernel, by decide, by decide, by decide +kernel, by decide, by decide +kernel,
        by decide +kernel⟩, by decide +kernel, by decide +kernel⟩
  have hall {P : LoggedStatement → Prop} (h : ∀ sql ∈ sampleSqls, P (sampleStatement sql)) :
      ∀ st ∈ sampleSqls.map sampleStatement, P st := by
    intro st hst
    obtain ⟨sql, hsql, rfl⟩ := List.mem_map.1 hst
    exact h sql hsql
  refine ⟨rfl, rfl, rfl, by decide, hall fun sql h => (hsamples sql h).1,
    hall fun sql h => (hsamples sql h).2.1, hall fun sql h => (hsamples sql h).2.2, ?_, rfl⟩
  exact (BufferedSource.shown_ofReads (by decide) _ _).1.trans (List.flatten_singleton)

/-- The last statement is left out; the parameters of the second one are written. -/
theorem run_node_statements_sampleLog :
    let sts := sampleSqls.map sampleStatement
    let run := sampleSettings.run sampleLog ⟨{}, 1, 0⟩
    Logs sampleSettings 0 sts sampleLog ∧ (⟨{}, 1, 0⟩ : Writer).sink.Unlimited ∧
      run.1 = .ok () ∧
      run.2.writer.sink.text = (sts.take 2).flatMap (fun st => st.line 0 ++ ['\n']) ∧
      run.2.tally.written = 2 ∧ run.2.tally.ignored = 1 ∧ run.2.tally.seen = 3 := by
  have hunlimited : (⟨{}, 1, 0⟩ : Writer).sink.Unlimited := ⟨rfl, rfl⟩
  obtain ⟨hresult, htext, hwritten, hignored, hseen⟩ :=
    run_node_statements logs_sampleLog hunlimited
  have hkept : (sampleSqls.map sampleStatement).filter (fun st => st.IsKept) =
      (sampleSqls.map sampleStatement).take 2 := by
    rfl
  rw [hkept] at htext hwritten
  exact ⟨logs_sampleLog, hunlimited, hresult, htext, hwritten, hignored.trans (by decide), hseen⟩

end ReplayLog.NodeLog
