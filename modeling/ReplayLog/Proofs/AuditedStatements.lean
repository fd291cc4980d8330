import ReplayLog.Proofs.ExportedStamps
import ReplayLog.Proofs.JsonRoundTrip
import ReplayLog.Proofs.PrintedParts
import ReplayLog.Proofs.SettledOutcomes
import ReplayLog.Proofs.TableRoundTrip

/-! # Audited statements

The database service tells the statements it audited as events or as rows of a table. The events give
the start of a statement as a number and escape its texts, the table gives the start as a local time
and quotes its texts; either way a statement has the same outcome. -/
namespace ReplayLog

structure AuditedStatement where
  time : LocalTime
  sql : Text
  schema : Text
  user : Text
  thread : Text
  /-- In microseconds. -/
  cost : Int

def ServiceExport.columnNames : List Text :=
  ["client ip", "db name", "user", "SQL command", "thread id", "cost time(microsecond)",
    "number of return", "execute time"].map String.toList

namespace AuditedStatement

/-- The statement can be written: its start is a whole second of a year of four digits, and its cost
fits into 64 bits. -/
structure Valid (st : AuditedStatement) : Prop where
  printable : st.time.Printable 0
  cost : Span.int64.holds st.cost = true

def startTime (st : AuditedStatement) (east : Int) : Int := (st.time.seconds - east) * 1000000

def members (st : AuditedStatement) (east : Int) : List (Text × Text) :=
  [("sql".toList, st.sql), ("origin_time".toList, Integer.print (st.startTime east)),
    ("thread_id".toList, st.thread), ("latency".toList, Integer.print st.cost),
    ("db".toList, st.schema), ("user".toList, st.user)]

def columns (st : AuditedStatement) (client returned : Text) : List Text :=
  [client, st.schema, st.user, st.sql, st.thread, Integer.print st.cost, returned,
    Stamp.printExported st.time]

def record (st : AuditedStatement) (east : Int) : Record :=
  ⟨st.sql, st.startTime east, st.thread, st.cost, st.schema, some st.user, none⟩

def outcome (st : AuditedStatement) (east : Int) : Outcome :=
  match firstRejection ServiceAudit.rules st.sql none with
  | some reason => .ignore reason
  | none => .emit (st.record east)

def IsKept (st : AuditedStatement) : Prop := st.sql.isBlankText = false ∧ ¬"log".toList <+: st.sql

instance (st : AuditedStatement) : Decidable st.IsKept := inferInstanceAs (Decidable (_ ∧ _))

def line (st : AuditedStatement) (east : Int) : Text :=
  (Json.object [("convertSqlText".toList, .text st.sql),
    ("startTime".toList, .number (.integer (st.startTime east))),
    ("session".toList, .text st.thread),
    ("execTime".toList, .number (.integer st.cost)),
    ("schema".toList, .text st.schema),
    ("user".toList, .text st.user)]).print

theorem layout_line (st : AuditedStatement) (east : Int) :
    ServiceAudit.layout.line (st.record east) = st.line east := by
  rfl

theorem firstRejection_eq_none_iff (st : AuditedStatement) :
    firstRejection ServiceAudit.rules st.sql none = none ↔ st.IsKept := by
  rw [firstRejection_none_iff, IsKept, ServiceAudit.rules, List.forall_mem_singleton,
    RejectionRule.check, ite_eq_right_iff, List.isPrefixOf_iff_prefix]
  simp

theorem settles_outcome (sts : List AuditedStatement) (east : Int) :
    Settles (fun st : AuditedStatement => st.outcome east) IsKept (fun st => st.record east) sts :=
  .of_reason (fun _ => rfl) fun st _ => firstRejection_eq_none_iff st

end AuditedStatement

section Events

def textMembers (members : List (Text × Text)) : Json.Members := members.map fun m => (m.1, .text m.2)

theorem exists_of_mem_textMembers {members : List (Text × Text)} {m : Text × Json}
    (h : m ∈ textMembers members) : ∃ t, m.2 = .text t := by
  obtain ⟨m, -, rfl⟩ := List.mem_map.1 h
  exact ⟨m.2, rfl⟩

theorem names_textMembers (members : List (Text × Text)) :
    (textMembers members).map Prod.fst = members.map Prod.fst := by
  rw [textMembers, List.map_map]
  rfl

theorem find?_textMembers (members : List (Text × Text)) (name : Text) :
    (textMembers members).find? name = (Row.find? members name).map Json.text := by
  simp [textMembers, Json.Members.find?, Row.find?, List.find?_map, Function.comp_def]

def textEvent (members : List (Text × Text)) : Json := .object (textMembers members)

theorem readLine_textEvent {members : List (Text × Text)} (h : (members.map Prod.fst).Nodup) :
    AuditEvent.readLine (textEvent members).print = .ok (textEvent members) := by
  have hback : ∀ m ∈ textMembers members, m.2.ReadsBack := by
    intro m hm
    obtain ⟨t, ht⟩ := exists_of_mem_textMembers hm
    rw [ht]
    exact Json.readsBack_text t
  have hnodup : (([] ++ textMembers members).map Prod.fst).Nodup := by
    rwa [List.nil_append, names_textMembers]
  rw [AuditEvent.readLine, Json.readLine, textEvent, Json.trim_print_object,
    Json.read_print_object hback, Json.Members.setAll_of_nodup hnodup]
  rfl

theorem field_textMembers {members : List (Text × Text)} (hnodup : (members.map Prod.fst).Nodup)
    {name : String} {t : Text} (h : (name.toList, t) ∈ members) :
    AuditEvent.field (textMembers members) name = .ok t := by
  rw [AuditEvent.field, find?_textMembers, Row.find?_of_mem hnodup h]
  rfl

theorem lines_textEvent (members : List (Text × Text)) :
    (textEvent members).print.lines = [(textEvent members).print] := by
  apply List.splitOn_eq_singleton
  apply Json.lineFeed_not_mem_print_object
  intro m hm x hx
  obtain ⟨t, ht⟩ := exists_of_mem_textMembers hm
  rw [ht, Json.print] at hx
  exact Json.not_control_of_mem_printText hx

theorem textEvent_line (members : List (Text × Text)) :
    (textEvent members).print ≠ [] ∧ (textEvent members).print.trim = (textEvent members).print := by
  refine ⟨?_, Json.trim_print_object _⟩
  rw [textEvent, Json.print, List.cons_append]
  exact List.cons_ne_nil _ _

/-- A source of events is fed as the lines of the events. -/
theorem feed_textEvents (e : Encoding) {b : BufferedSource} {events : List (List (Text × Text))}
    (hbytes : b.shownBytes =
      Text.toUtf8 (events.flatMap fun members => (textEvent members).print ++ ['\n']))
    (hfailure : b.shownFailure = none) :
    (Feed.ofLines (b.lines e)).arrivals.map Arrival.entry =
        events.map (fun members => (textEvent members).print) ∧
      (Feed.ofLines (b.lines e)).ending = .finished 0 none := by
  have hlines : b.lines e = (events.map fun members => (textEvent members).print).map .ok := by
    have htrim : ∀ t ∈ events.map (fun members => (textEvent members).print),
        ∀ line ∈ t.lines, line.trim = line := by
      intro t ht line hline
      obtain ⟨members, -, rfl⟩ := List.mem_map.1 ht
      rw [lines_textEvent, List.mem_singleton] at hline
      rw [hline]
      exact (textEvent_line members).2
    have hshown : b.shownBytes = Text.toUtf8
        ((events.map fun members => (textEvent members).print).flatMap (· ++ ['\n'])) := by
      rw [hbytes, List.flatMap_map]
    rw [BufferedSource.lines_texts e htrim hshown hfailure, List.flatMap_map]
    congr 1
    rw [List.flatMap_congr fun members _ => lines_textEvent members, List.map_eq_flatMap]
  rw [hlines]
  apply Cut.ofLines_map_ok
  intro line hline
  obtain ⟨members, -, rfl⟩ := List.mem_map.1 hline
  exact textEvent_line members

end Events

section Tables

theorem Table.Sheet.exists_items (sheet : Table.Sheet) {t : Table}
    (hcolumns : t.columns = sheet.header.fields) {rows : List Table.RawRow}
    {written : List Table.WrittenRow}
    (h : List.Forall₂ (fun r w => r.fields = w.fields.map Text.toUtf8) rows written)
    (hwritten : ∀ w ∈ written, w ∈ sheet.rows) : ∃ items : List (Nat × Row),
      rows.map (fun r => (t.decodeRow r).map fun row => (r.line, row)) = items.map .ok ∧
      items.map Prod.snd = written.map fun w => sheet.header.values.zip w.values := by
  induction h with
  | nil => exact ⟨[], rfl, rfl⟩
  | @cons r w rows written hr _ ih =>
    obtain ⟨items, hitems, hvalues⟩ := ih fun w hw => hwritten w (List.mem_cons_of_mem _ hw)
    have hrow := sheet.decodeRow_eq rfl hcolumns hr (hwritten w List.mem_cons_self)
    refine ⟨(r.line, sheet.header.values.zip w.values) :: items, ?_, ?_⟩
    · rw [List.map_cons, hrow, hitems]
      rfl
    · rw [List.map_cons, hvalues]
      rfl

/-- The rows of a table are fed with their values under the names of the header. -/
theorem Table.Sheet.feed_eq (sheet : Table.Sheet) (e : Encoding) {b : BufferedSource}
    (hbytes : b.bytes = sheet.bytes) (hfailure : b.source.failure = none) :
    (Feed.ofTable (Table.ofSource e b)).arrivals.map Arrival.entry =
        sheet.rows.map (fun w => sheet.header.values.zip w.values) ∧
      (Feed.ofTable (Table.ofSource e b)).ending = .finished 0 none := by
  obtain ⟨rows, htable, hrows⟩ := sheet.ofSource_eq e b hbytes hfailure
  have hcolumns : (⟨e, sheet.header.fields, rows, none⟩ : Table).columns = sheet.header.fields := rfl
  obtain ⟨items, hitems, hvalues⟩ := sheet.exists_items hcolumns hrows fun w hw => hw
  have hall : (⟨e, sheet.header.fields, rows, none⟩ : Table).items = items.map .ok := by
    rw [Table.items, ← hitems]
    exact List.append_nil _
  rw [htable, ← hvalues]
  exact Cut.ofTable_map_ok hall

end Tables

namespace AuditedStatement

variable {st : AuditedStatement} {east : Int}

/-- An event of the statement: texts under different names, and among them what the statement
says. -/
structure Tells (st : AuditedStatement) (east : Int) (event : List (Text × Text)) : Prop where
  nodup : (event.map Prod.fst).Nodup
  told : ∀ m ∈ st.members east, m ∈ event

theorem convert_event (h : st.Valid) (heast : -86400 < east ∧ east < 86400)
    {event : List (Text × Text)} (hevent : st.Tells east event) :
    (Converter.ofEvents ServiceAudit.layout ServiceAudit.convert).convert (textEvent event).print =
      .ok (st.outcome east) := by
  have hfield {name : String} {t : Text} (hm : (name.toList, t) ∈ st.members east) :
      AuditEvent.field (textMembers event) name = .ok t :=
    field_textMembers hevent.nodup (hevent.told _ hm)
  have hinteger {name : String} {n : Int} (hm : (name.toList, Integer.print n) ∈ st.members east)
      (hn : Span.int64.holds n = true) :
      AuditEvent.integerField (textMembers event) name = .ok n := by
    rw [AuditEvent.integerField, hfield hm]
    exact Extract.integer_print hn _
  have hmembers : AuditEvent.members? (textEvent event) = .ok (some (textMembers event)) := by
    cases event with
    | nil => exact absurd (hevent.told _ List.mem_cons_self) List.not_mem_nil
    | cons m event => rfl
  have hsql : AuditEvent.field _ "sql" = .ok st.sql := hfield (by simp [members])
  have hstart : AuditEvent.integerField _ "origin_time" = .ok (st.startTime east) :=
    hinteger (by simp [members]) (LocalTime.holds_of_printable h.printable heast)
  have hthread : AuditEvent.field _ "thread_id" = .ok st.thread := hfield (by simp [members])
  have hcost : AuditEvent.integerField _ "latency" = .ok st.cost :=
    hinteger (by simp [members]) h.cost
  have hschema : AuditEvent.field _ "db" = .ok st.schema := hfield (by simp [members])
  have huser : AuditEvent.field _ "user" = .ok st.user := hfield (by simp [members])
  change (AuditEvent.readLine (textEvent event).print >>= ServiceAudit.convert) = _
  rw [readLine_textEvent hevent.nodup]
  change (AuditEvent.members? (textEvent event) >>= _) = _
  rw [hmembers]
  change ServiceAudit.ofMembers _ = _
  rw [ServiceAudit.ofMembers, hsql, outcome]
  change (match firstRejection ServiceAudit.rules st.sql none with
    | some reason => Except.ok (Outcome.ignore reason)
    | none => _) = _
  cases firstRejection ServiceAudit.rules st.sql none with
  | some reason => rfl
  | none =>
    dsimp only
    rw [hstart, hthread, hcost, hschema, huser]
    rfl

theorem convert_row (h : st.Valid) (heast : -86400 < east ∧ east < 86400) (client returned : Text) :
    ServiceExport.convert (.fixed east)
        (ServiceExport.columnNames.zip (st.columns client returned)) = .ok (st.outcome east) := by
  have hstart : Extract.stamp .exported (.fixed east) (Stamp.printExported st.time) =
      .ok (st.startTime east) := by
    rw [Extract.stamp, Stamp.read_printExported h.printable heast]
    rfl
  have hsql : ServiceExport.column (ServiceExport.columnNames.zip (st.columns client returned))
      "SQL command" = .ok st.sql := rfl
  rw [ServiceExport.convert, hsql, outcome]
  change (match firstRejection ServiceAudit.rules st.sql none with
    | some reason => Except.ok (Outcome.ignore reason)
    | none => Extract.stamp .exported (.fixed east) (Stamp.printExported st.time) >>= _) = _
  cases firstRejection ServiceAudit.rules st.sql none with
  | some reason => rfl
  | none =>
    dsimp only
    rw [hstart]
    change (Extract.integer _ (Integer.print st.cost) >>= _) = _
    rw [Extract.integer_print h.cost]
    rfl

end AuditedStatement

end ReplayLog
