import Mathlib.Data.List.Basic
import ReplayLog.Conversion.Run

/-! # Skipped entries

An entry whose statement a rule is against is left out. Event logs and exported tables look at the
statement first, so nothing else in such an entry counts. The database logs of several lines read
all other parts of an entry before they look at the rules, so there an entry that is to be left out
can still stop the run, with what the first of its other parts stops with. -/
namespace ReplayLog

namespace AccessLog

def readOthers (zone : Zone) (entry : Text) : Extract Unit := do
  let header ← Header.ofWords (Header.words entry)
  let _ ← Extract.stamp .comma zone header.startTimeText
  let _ ← header.execTime
  return ()

/-- A statement that is to be left out is, once the other parts of its entry are read. -/
theorem convert_of_rejected (zone : Zone) (schema : Text) {entry text : Text} {reason : Rejection}
    (htext : statement entry = .ok text) (hreason : firstRejection rules text none = some reason) :
    convert zone schema entry = (fun _ => .ignore reason) <$> readOthers zone entry := by
  rw [convert, readOthers, map_bind]
  refine bind_congr fun header => ?_
  rw [map_bind]
  refine bind_congr fun startTime => ?_
  rw [htext, map_bind]
  refine bind_congr (x := header.execTime) fun execTime => ?_
  rw [hreason]
  rfl

end AccessLog

namespace NodeLog

def readOthers (zone : Zone) (entry metrics : Text) : Extract Unit := do
  let header ← Header.ofWords (Header.words entry)
  let _ ← Extract.stamp .point zone header.startTimeText
  let _ ← Client.ofBlock header.block
  let _ ← execTime metrics
  return ()

theorem convert_of_rejected (zone : Zone) {entry text tail parameters metrics : Text}
    {reason : Rejection} (htext : statementAndTail entry = .ok (text, tail))
    (htail : parametersAndMetrics tail = .ok (parameters, metrics))
    (hreason : firstRejection rules text (parameter? parameters) = some reason) :
    convert zone entry = (fun _ => .ignore reason) <$> readOthers zone entry metrics := by
  rw [convert, readOthers, map_bind]
  refine bind_congr fun header => ?_
  rw [map_bind]
  refine bind_congr fun startTime => ?_
  rw [map_bind]
  refine bind_congr fun client => ?_
  have hparts (f : Text × Text → Extract Outcome) :
      statementAndTail entry >>= f = f (text, tail) := by
    rw [htext]
    rfl
  rw [hparts, map_bind]
  change (parametersAndMetrics tail >>= _) = _
  rw [htail]
  refine bind_congr (x := execTime metrics) fun time => ?_
  dsimp only
  rw [hreason]
  rfl

end NodeLog

namespace AuditEvent

/-- An event with a field has members. -/
theorem ofMembers_object {members : Json.Members} {name : String} {text : Text}
    (h : field members name = .ok text) (convert : Json.Members → Extract Outcome) :
    ofMembers convert (.object members) = convert members := by
  cases members with
  | nil => cases h
  | cons member members => rfl

end AuditEvent

theorem SqlAudit.convert_of_rejected (zone : Zone) {members : Json.Members} {text : Text}
    {parameter : Option Text} {reason : Rejection}
    (htext : AuditEvent.field members "sql" = .ok text)
    (hparameter : AuditEvent.nullableField members "parameters" = .ok parameter)
    (hreason : firstRejection rules text parameter = some reason) :
    convert zone (.object members) = .ok (.ignore reason) := by
  rw [convert, AuditEvent.ofMembers_object htext, ofMembers, htext]
  change (AuditEvent.nullableField members "parameters" >>= _) = _
  rw [hparameter]
  dsimp only [bind, Except.bind]
  rw [hreason]
  rfl

theorem ServiceAudit.convert_of_rejected {members : Json.Members} {text : Text}
    {reason : Rejection} (htext : AuditEvent.field members "sql" = .ok text)
    (hreason : firstRejection rules text none = some reason) :
    convert (.object members) = .ok (.ignore reason) := by
  rw [convert, AuditEvent.ofMembers_object htext, ofMembers, htext]
  dsimp only [bind, Except.bind]
  rw [hreason]
  rfl

theorem ServiceExport.convert_of_rejected (zone : Zone) {row : Row} {text : Text}
    {reason : Rejection} (htext : column row "SQL command" = .ok text)
    (hreason : firstRejection ServiceAudit.rules text none = some reason) :
    convert zone row = .ok (.ignore reason) := by
  rw [convert, htext]
  dsimp only [bind, Except.bind]
  rw [hreason]
  rfl

def Converter.leavesOut {α : Type} (c : Converter α) (entry : α) : Bool :=
  match c.convert entry with
  | .ok (.ignore _) => true
  | _ => false

def Feed.keptBy {α : Type} (feed : Feed α) (c : Converter α) : Feed α :=
  { feed with arrivals := feed.arrivals.filter fun a => !c.leavesOut a.entry }

namespace Progress

/-- The results are the same, and so is what was written. -/
def WritesAlike (r r' : Result × Progress) : Prop := r.1 = r'.1 ∧ r.2.writer = r'.2.writer

variable {α : Type} {c : Converter α} {p q : Progress}

/-- What settling an outcome writes depends on the writer alone. -/
theorem settle_writesAlike (h : p.writer = q.writer) (l : Layout) (o : Outcome) :
    WritesAlike (p.settle l o) (q.settle l o) := by
  obtain ⟨tally, writer, remarks⟩ := p
  obtain ⟨tally', writer', remarks'⟩ := q
  dsimp only at h
  subst h
  cases o with
  | emit r =>
    rw [settle, settle]
    rcases writer.write l r with ⟨fault | -, writer⟩ <;> exact ⟨rfl, rfl⟩
  | ignore reason => exact ⟨rfl, rfl⟩
  | empty => exact ⟨rfl, rfl⟩

theorem take_writesAlike (h : p.writer = q.writer) (a : Arrival α) :
    WritesAlike (p.take c a) (q.take c a) := by
  rw [take, take]
  rcases c.convert a.entry with (f | o) | outcome
  · exact ⟨rfl, h⟩
  · exact ⟨rfl, h⟩
  · exact settle_writesAlike (p := p.atLine a.linesRead) (q := q.atLine a.linesRead) h c.layout
      outcome

/-- An entry that is left out is taken without writing and does not stop a run. -/
theorem take_of_leavesOut {a : Arrival α} (h : c.leavesOut a.entry = true) (p : Progress) :
    (p.take c a).1 = .ok () ∧ (p.take c a).2.writer = p.writer := by
  rw [Converter.leavesOut] at h
  split at h
  · next reason hreason =>
    rw [take, hreason]
    exact ⟨rfl, rfl⟩
  · cases h

/-- Without the entries left out, the same is written to the same writer. -/
theorem takeAll_writesAlike (h : p.writer = q.writer) (as : List (Arrival α)) :
    WritesAlike (p.takeAll c as) (q.takeAll c (as.filter fun a => !c.leavesOut a.entry)) := by
  induction as generalizing p q with
  | nil => exact ⟨rfl, h⟩
  | cons a as ih =>
    rw [takeAll]
    cases hout : c.leavesOut a.entry with
    | true =>
      obtain ⟨hresult, hwriter⟩ := take_of_leavesOut hout p
      rw [List.filter_cons_of_neg (by simp [hout])]
      generalize p.take c a = step at hresult hwriter
      obtain ⟨r, p'⟩ := step
      dsimp only at hresult
      subst hresult
      exact ih (hwriter.trans h)
    | false =>
      obtain ⟨hresult, hwriter⟩ := take_writesAlike (c := c) h a
      rw [List.filter_cons_of_pos (by simp [hout]), takeAll]
      generalize p.take c a = step at hresult hwriter
      generalize q.take c a = step' at hresult hwriter
      obtain ⟨r, p'⟩ := step
      obtain ⟨r', q'⟩ := step'
      dsimp only at hresult hwriter
      subst hresult
      cases r with
      | ok => exact ih hwriter
      | error stop => exact ⟨rfl, hwriter⟩

theorem close_writesAlike {r r' : Result × Progress} (h : WritesAlike r r') :
    WritesAlike (close r) (close r') := by
  obtain ⟨result, tally, writer, remarks⟩ := r
  obtain ⟨result', tally', writer', remarks'⟩ := r'
  obtain ⟨hresult, hwriter⟩ := h
  dsimp only at hresult hwriter
  subst hresult hwriter
  rcases result with (f | overflow) | - <;> simp only [close]
  · rcases writer.flush with ⟨fault | -, writer⟩ <;> exact ⟨rfl, rfl⟩
  · exact ⟨rfl, rfl⟩
  · rcases writer.flush with ⟨fault | -, writer⟩ <;> exact ⟨rfl, rfl⟩

/-- A run writes what it would write if the entries left out were not there, and it ends alike. -/
theorem takeFeed_keptBy (c : Converter α) (feed : Feed α) (p : Progress) :
    WritesAlike (close (p.takeFeed c feed)) (close (p.takeFeed c (feed.keptBy c))) := by
  apply close_writesAlike
  obtain ⟨hresult, hwriter⟩ := takeAll_writesAlike (c := c) (Eq.refl p.writer) feed.arrivals
  rw [takeFeed, takeFeed, Feed.keptBy]
  generalize p.takeAll c feed.arrivals = taken at hresult hwriter
  generalize p.takeAll c (feed.arrivals.filter _) = taken' at hresult hwriter
  obtain ⟨r, q⟩ := taken
  obtain ⟨r', q'⟩ := taken'
  dsimp only at hresult hwriter
  subst hresult
  cases r with
  | error stop => exact ⟨rfl, hwriter⟩
  | ok => cases feed.ending <;> exact ⟨rfl, hwriter⟩

end Progress

/-- An event or a row whose statement is to be left out is left out, whatever else it holds. An
entry of a database log is left out if its other parts can be read, and otherwise it stops the run
with what the first of them stops with. A run passes over the entries left out. -/
theorem rejected_skipped (zone : Zone) (schema : Text) :
    (∀ members text parameter reason, AuditEvent.field members "sql" = .ok text →
      AuditEvent.nullableField members "parameters" = .ok parameter →
      firstRejection SqlAudit.rules text parameter = some reason →
      SqlAudit.convert zone (.object members) = .ok (.ignore reason)) ∧
    (∀ members text reason, AuditEvent.field members "sql" = .ok text →
      firstRejection ServiceAudit.rules text none = some reason →
      ServiceAudit.convert (.object members) = .ok (.ignore reason)) ∧
    (∀ row text reason, ServiceExport.column row "SQL command" = .ok text →
      firstRejection ServiceAudit.rules text none = some reason →
      ServiceExport.convert zone row = .ok (.ignore reason)) ∧
    (∀ entry text reason, AccessLog.statement entry = .ok text →
      firstRejection AccessLog.rules text none = some reason →
      AccessLog.convert zone schema entry =
        (fun _ => .ignore reason) <$> AccessLog.readOthers zone entry) ∧
    (∀ entry text tail parameters metrics reason,
      NodeLog.statementAndTail entry = .ok (text, tail) →
      NodeLog.parametersAndMetrics tail = .ok (parameters, metrics) →
      firstRejection NodeLog.rules text (NodeLog.parameter? parameters) = some reason →
      NodeLog.convert zone entry =
        (fun _ => .ignore reason) <$> NodeLog.readOthers zone entry metrics) ∧
    (∀ (α : Type) (c : Converter α) (feed : Feed α) (p : Progress),
      Progress.WritesAlike (Progress.close (p.takeFeed c feed))
        (Progress.close (p.takeFeed c (feed.keptBy c)))) := by
  refine ⟨?_, ?_, ?_, ?_, ?_, ?_⟩
  · intro members text parameter reason htext hparameter hreason
    exact SqlAudit.convert_of_rejected zone htext hparameter hreason
  · intro members text reason htext hreason
    exact ServiceAudit.convert_of_rejected htext hreason
  · intro row text reason htext hreason
    exact ServiceExport.convert_of_rejected zone htext hreason
  · intro entry text reason htext hreason
    exact AccessLog.convert_of_rejected zone schema htext hreason
  · intro entry text tail parameters metrics reason htext htail hreason
    exact NodeLog.convert_of_rejected zone htext htail hreason
  · intro α c feed p
    exact Progress.takeFeed_keptBy c feed p

def administrativeEntry (date : String) : Text :=
  ("[" ++ date ++ " 00:03:15,398] I [t] L - C T=4 [2023-02-10 00:03:15 398] 7 SYNC x\\;").toList

/-- The statement is one to be left out, but no February has thirty days. -/
theorem convert_administrativeEntry :
    let entry := administrativeEntry "2023-02-30"
    let fault := StampFault.invalid "2023-02-30 00:03:15,398".toList .comma .outOfRange
    AccessLog.statement entry = .ok "SYNC x".toList ∧
      firstRejection AccessLog.rules "SYNC x".toList none =
        some (.administrative "SYNC".toList) ∧
      AccessLog.convert (.fixed 0) [] entry = .error (.fault (.stamp fault)) := by
  decide +kernel

/-- A statement cut short is left out of an event that has no other field, and an administrative
one where the other parts of its entry can be read. -/
theorem rejected_skipped_cutShort :
    let members : Json.Members :=
      [("sql".toList, .text "select 1 more".toList), ("parameters".toList, .null)]
    let entry := administrativeEntry "2023-02-10"
    AuditEvent.field members "sql" = .ok "select 1 more".toList ∧
      AuditEvent.nullableField members "parameters" = .ok none ∧
      firstRejection SqlAudit.rules "select 1 more".toList none = some .truncated ∧
      SqlAudit.convert (.fixed 0) (.object members) = .ok (.ignore .truncated) ∧
      AccessLog.statement entry = .ok "SYNC x".toList ∧
      firstRejection AccessLog.rules "SYNC x".toList none =
        some (.administrative "SYNC".toList) ∧
      AccessLog.convert (.fixed 0) [] entry = .ok (.ignore (.administrative "SYNC".toList)) := by
  intro members entry
  obtain ⟨hevent, -, -, hentry, -⟩ := rejected_skipped (.fixed 0) []
  have htext : AuditEvent.field members "sql" = .ok "select 1 more".toList := by decide +kernel
  have hparameter : AuditEvent.nullableField members "parameters" = .ok none := by decide +kernel
  have hreason : firstRejection SqlAudit.rules "select 1 more".toList none = some .truncated := by
    decide +kernel
  have hsync : AccessLog.statement entry = .ok "SYNC x".toList := by decide +kernel
  have hrule : firstRejection AccessLog.rules "SYNC x".toList none =
      some (.administrative "SYNC".toList) := by
    decide +kernel
  have hothers : AccessLog.readOthers (.fixed 0) entry = .ok () := by decide +kernel
  refine ⟨htext, hparameter, hreason, hevent _ _ _ _ htext hparameter hreason, hsync, hrule, ?_⟩
  rw [hentry _ _ _ hsync hrule, hothers]
  rfl

end ReplayLog
