import ReplayLog.Proofs.AgreeingRuns
import ReplayLog.Proofs.AuditedStatements

/-! # Events and table of one audit

Whether an audit comes as events or as a table makes no difference: the same lines are written and
the same statements counted, whatever the sink refuses. -/
namespace ReplayLog

open AuditedStatement

variable {s s' : Settings} {east : Int} {sts : List AuditedStatement} {b b' : BufferedSource}

/-- A source that holds one event for each statement, a line each, and nothing else. -/
structure HoldsEvents (s : Settings) (east : Int) (sts : List AuditedStatement)
    (events : List (List (Text × Text))) (b : BufferedSource) : Prop where
  dialect : s.dialect = .serviceAudit
  tells : List.Forall₂ (fun st event => st.Tells east event) sts events
  bytes : b.shownBytes = Text.toUtf8 (events.flatMap fun event => (textEvent event).print ++ ['\n'])
  failure : b.shownFailure = none

/-- A source that holds the table of the statements, however its rows are written. -/
structure HoldsTable (s : Settings) (east : Int) (sts : List AuditedStatement) (sheet : Table.Sheet)
    (b : BufferedSource) : Prop where
  dialect : s.dialect = .serviceExport
  zone : s.zone = .fixed east
  header : sheet.header.values = ServiceExport.columnNames
  rows : List.Forall₂ (fun st row => ∃ client returned,
    row.values = AuditedStatement.columns st client returned) sts sheet.rows
  bytes : b.bytes = sheet.bytes
  failure : b.source.failure = none

theorem map_eq_of_forall₂ {α β γ : Type} {R : α → β → Prop} {as : List α} {bs : List β}
    (h : List.Forall₂ R as bs) {f : α → γ} {g : β → γ} (hfg : ∀ a ∈ as, ∀ b, R a b → g b = f a) :
    bs.map g = as.map f := by
  induction h with
  | nil => rfl
  | cons hab _ ih =>
    rw [List.map_cons, List.map_cons, hfg _ List.mem_cons_self _ hab,
      ih fun a ha => hfg a (List.mem_cons_of_mem _ ha)]

theorem HoldsEvents.convert {events : List (List (Text × Text))}
    (h : HoldsEvents s east sts events b) (heast : -86400 < east ∧ east < 86400)
    (hvalid : ∀ st ∈ sts, st.Valid) :
    ((Feed.ofLines (b.lines s.encoding)).arrivals.map Arrival.entry).map
        (Converter.ofEvents ServiceAudit.layout ServiceAudit.convert).convert =
      sts.map fun st => .ok (st.outcome east) := by
  rw [(feed_textEvents s.encoding h.bytes h.failure).1, List.map_map]
  apply map_eq_of_forall₂ h.tells
  intro st hst event hevent
  exact convert_event (hvalid st hst) heast hevent

theorem HoldsTable.convert {sheet : Table.Sheet} (h : HoldsTable s east sts sheet b)
    (heast : -86400 < east ∧ east < 86400) (hvalid : ∀ st ∈ sts, st.Valid) :
    ((Feed.ofTable (Table.ofSource s.encoding b)).arrivals.map Arrival.entry).map
        (ServiceExport.convert s.zone) = sts.map fun st => .ok (st.outcome east) := by
  rw [(sheet.feed_eq s.encoding h.bytes h.failure).1, List.map_map]
  apply map_eq_of_forall₂ h.rows
  rintro st hst row ⟨client, returned, hvalues⟩
  rw [Function.comp_apply, h.header, hvalues, h.zone]
  exact convert_row (hvalid st hst) heast client returned

/-- The events and the table of one audit are converted alike, whatever the sink refuses. -/
theorem run_audit_exports {events : List (List (Text × Text))} {sheet : Table.Sheet}
    (heast : -86400 < east ∧ east < 86400) (hvalid : ∀ st ∈ sts, st.Valid)
    (hevents : HoldsEvents s east sts events b) (htable : HoldsTable s' east sts sheet b')
    (w : Writer) :
    (s.run b w).1 = (s'.run b' w).1 ∧
    (s.run b w).2.writer = (s'.run b' w).2.writer ∧
    (s.run b w).2.tally.seen = (s'.run b' w).2.tally.seen ∧
    (s.run b w).2.tally.written = (s'.run b' w).2.tally.written ∧
    (s.run b w).2.tally.ignored = (s'.run b' w).2.tally.ignored ∧
    (w.sink.Unlimited →
      (s.run b w).1 = .ok () ∧
      (s.run b w).2.writer.sink.text = w.sink.text ++
        (sts.filter fun st => st.IsKept).flatMap (fun st => st.line east ++ ['\n']) ∧
      (s.run b w).2.tally.written = (sts.filter fun st => st.IsKept).length ∧
      (s.run b w).2.tally.ignored = (sts.filter fun st => ¬st.IsKept).length ∧
      (s.run b w).2.tally.seen = sts.length) := by
  have hconvert := hevents.convert heast hvalid
  have hconvert' := htable.convert heast hvalid
  have hending := (feed_textEvents s.encoding hevents.bytes hevents.failure).2
  have hending' := (sheet.feed_eq s'.encoding htable.bytes htable.failure).2
  have hrun : s.run b w = Progress.close (Progress.takeFeed
      (.ofEvents ServiceAudit.layout ServiceAudit.convert) ⟨{}, w, #[]⟩
      (.ofLines (b.lines s.encoding))) := by
    rw [Settings.run, Settings.takeSource, hevents.dialect]
  have hrun' : s'.run b' w = Progress.close (Progress.takeFeed
      (.ofRows ServiceAudit.layout (ServiceExport.convert s'.zone)) ⟨{}, w, #[]⟩
      (.ofTable (Table.ofSource s'.encoding b'))) := by
    rw [Settings.run, Settings.takeSource, htable.dialect]
  have houtcomes : (sts.map fun st => .ok (st.outcome east) : List (Extract Outcome)) =
      (sts.map fun st => st.outcome east).map .ok := by
    rw [List.map_map]
    rfl
  have hsame : Progress.Alike ⟨{}, w, #[]⟩ ⟨{}, w, #[]⟩ := ⟨rfl, rfl, rfl, rfl, rfl⟩
  have hlayout : (Converter.ofEvents ServiceAudit.layout ServiceAudit.convert).layout =
      (Converter.ofRows ServiceAudit.layout (ServiceExport.convert s'.zone)).layout := rfl
  obtain ⟨hresult, halike⟩ := hsame.takeFeed hlayout hending hending' (hconvert.trans houtcomes)
    (hconvert'.trans houtcomes)
  rw [hrun, hrun']
  refine ⟨hresult, halike.writer, halike.seen, halike.written, halike.ignored, fun hw => ?_⟩
  obtain ⟨p, hp, htext, hwritten, hignored, hseen⟩ :=
    Progress.takeFeed_settled (.ofEvents ServiceAudit.layout ServiceAudit.convert) hending
      (settles_outcome sts east) hconvert ⟨{}, w, #[]⟩ hw
  rw [hp]
  refine ⟨rfl, htext.trans ?_, hwritten.trans (Nat.zero_add _), hignored.trans (Nat.zero_add _),
    hseen.trans (Nat.zero_add _)⟩
  simp only [Converter.ofEvents, layout_line]

section Renderings

theorem AuditedStatement.tells_members (st : AuditedStatement) (east : Int) :
    st.Tells east (st.members east) := by
  refine ⟨?_, fun m hm => hm⟩
  have hnames : (st.members east).map Prod.fst =
      ["sql", "origin_time", "thread_id", "latency", "db", "user"].map String.toList := rfl
  rw [hnames]
  decide

theorem holdsEvents_members {capacity : Nat} (hcapacity : capacity ≠ 0)
    (hdialect : s.dialect = .serviceAudit) (east : Int) (sts : List AuditedStatement) :
    HoldsEvents s east sts (sts.map fun st => st.members east)
      (.ofSource capacity (.ofReads [Text.toUtf8 ((sts.map fun st => st.members east).flatMap
        fun event => (textEvent event).print ++ ['\n'])] none)) := by
  obtain ⟨hbytes, hfailure⟩ := BufferedSource.shown_ofReads hcapacity
    [Text.toUtf8 ((sts.map fun st => st.members east).flatMap
      fun event => (textEvent event).print ++ ['\n'])] none
  refine ⟨hdialect, ?_, hbytes.trans List.flatten_singleton, hfailure⟩
  rw [List.forall₂_map_right_iff, List.forall₂_same]
  exact fun st _ => st.tells_members east

namespace ServiceExport

theorem bare_of_mem_columnNames : ∀ name ∈ columnNames, Table.Bare name := by
  have hplain : ∀ name ∈ columnNames, ',' ∉ name ∧ '\r' ∉ name ∧ '\n' ∉ name ∧
      name.head? ≠ some ' ' ∧ name.head? ≠ some '"' := by decide
  intro name hname
  obtain ⟨hcomma, hreturn, hlineFeed, hspace, hquote⟩ := hplain name hname
  exact ⟨hcomma, hreturn, hlineFeed, hspace, hquote⟩

def header : Table.WrittenRow where
  cells := columnNames.attach.map fun name =>
    ⟨0, false, name.val, fun _ => bare_of_mem_columnNames name.val name.property⟩
  trailingComma := true
  carriageReturn := false

def row (values : List Text) : Table.WrittenRow where
  cells := values.map fun value => ⟨0, true, value, nofun⟩
  trailingComma := true
  carriageReturn := false

def sheet (sts : List AuditedStatement) (client returned : Text) : Table.Sheet where
  header := header
  rows := sts.map fun st => row (AuditedStatement.columns st client returned)
  two_le := by decide
  width := by
    intro w hw
    obtain ⟨st, -, rfl⟩ := List.mem_map.1 hw
    rfl
  nodup := by decide
  ne_nil := by decide
  trimmed := by decide
  unmarked := by decide

theorem holdsTable_sheet (hdialect : s.dialect = .serviceExport) (hzone : s.zone = .fixed east)
    (sts : List AuditedStatement) (client returned : Text) (capacity : Nat) :
    HoldsTable s east sts (sheet sts client returned)
      (.ofSource capacity (.ofReads [(sheet sts client returned).bytes] none)) := by
  have hheader : header.values = columnNames := by decide
  refine ⟨hdialect, hzone, hheader, ?_, ?_, rfl⟩
  · rw [sheet, List.forall₂_map_right_iff, List.forall₂_same]
    intro st _
    refine ⟨client, returned, ?_⟩
    rw [row, Table.WrittenRow.values, List.map_map]
    exact List.map_id _
  · exact List.flatten_filter_not_isEmpty.trans List.flatten_singleton

end ServiceExport

def sampleTime : LocalTime :=
  ⟨⟨2023, 11, 7, by decide, by decide, by decide, by decide⟩, 16, 50, 30, 0⟩

/-- Statements of which the second one is administrative and the third one is blank. -/
def sampleAudit : List AuditedStatement :=
  ["select \"é\", '\\'\n\x01", "logout", " "].map fun sql =>
    ⟨sampleTime, sql.toList, "rds_uat1".toList, "app".toList, "2768610".toList, 15⟩

def sampleEvents : BufferedSource :=
  .ofSource 64 (.ofReads [Text.toUtf8 ((sampleAudit.map fun st => st.members 28800).flatMap
    fun event => (textEvent event).print ++ ['\n'])] none)

def sampleSheet : Table.Sheet :=
  ServiceExport.sheet sampleAudit "189.33.68.214".toList "1".toList

def sampleTable : BufferedSource := .ofSource 5 (.ofReads [sampleSheet.bytes] none)

def eventSettings : Settings := { dialect := .serviceAudit, zone := .fixed 0 }

def tableSettings : Settings := { dialect := .serviceExport, zone := .fixed 28800 }

/-- Only the first statement is written, and the others are counted. -/
theorem run_audit_exports_sampleAudit :
    let events := sampleAudit.map fun st => st.members 28800
    let run := eventSettings.run sampleEvents ⟨{}, 1, 0⟩
    let run' := tableSettings.run sampleTable ⟨{}, 1, 0⟩
    (∀ st ∈ sampleAudit, st.Valid) ∧
      HoldsEvents eventSettings 28800 sampleAudit events sampleEvents ∧
      HoldsTable tableSettings 28800 sampleAudit sampleSheet sampleTable ∧
      (⟨{}, 1, 0⟩ : Writer).sink.Unlimited ∧
      run.1 = .ok () ∧ run'.1 = .ok () ∧
      run.2.writer.sink.text = run'.2.writer.sink.text ∧
      run'.2.writer.sink.text = (sampleAudit.take 1).flatMap (fun st => st.line 28800 ++ ['\n']) ∧
      run'.2.tally.written = 1 ∧ run'.2.tally.ignored = 2 ∧ run'.2.tally.seen = 3 := by
  intro events run run'
  have hvalid : ∀ st ∈ sampleAudit, st.Valid := by
    intro st hst
    obtain ⟨sql, -, rfl⟩ := List.mem_map.1 hst
    have hprintable : sampleTime.Printable 0 :=
      ⟨by decide, by decide, by decide, by decide, by decide, rfl⟩
    have hcost : Span.int64.holds 15 = true := by decide
    exact ⟨hprintable, hcost⟩
  have hevents : HoldsEvents eventSettings 28800 sampleAudit events sampleEvents :=
    holdsEvents_members (by decide) rfl 28800 sampleAudit
  have htable : HoldsTable tableSettings 28800 sampleAudit sampleSheet sampleTable :=
    ServiceExport.holdsTable_sheet rfl rfl sampleAudit _ _ 5
  have hunlimited : (⟨{}, 1, 0⟩ : Writer).sink.Unlimited := ⟨rfl, rfl⟩
  obtain ⟨hresult, hwriter, hseen, hwritten, hignored, hcontent⟩ :=
    run_audit_exports (by decide) hvalid hevents htable ⟨{}, 1, 0⟩
  obtain ⟨hok, htext, hkept, hleft, hall⟩ := hcontent hunlimited
  have hfirst : (sampleAudit.filter fun st => st.IsKept) = sampleAudit.take 1 := rfl
  rw [hfirst] at htext hkept
  exact ⟨hvalid, hevents, htable, hunlimited, hok, hresult.symm.trans hok,
    congrArg (fun w => w.sink.text) hwriter,
    (congrArg (fun w => w.sink.text) hwriter).symm.trans htext, hwritten.symm.trans hkept,
    hignored.symm.trans (hleft.trans (by decide)), hseen.symm.trans hall⟩

end Renderings

end ReplayLog
