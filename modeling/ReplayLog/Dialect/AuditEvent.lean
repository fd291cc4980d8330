import ReplayLog.Entry.Extract
import ReplayLog.Json.Reader
import ReplayLog.Record.Layout

/-! # Audit events

An audit event is a line with one JSON object. Its fields are texts, and a number in the place of a
text counts as the text of the number. Two services write such events under different names; the
rules on statements come before the other fields are read. -/
namespace ReplayLog.AuditEvent

def readLine (line : Text) : Extract Json :=
  (Json.readLine line).mapError fun f => .fault (.json f)

/-- The members of an event, or nothing for an object without members. -/
def members? : Json → Extract (Option Json.Members)
  | .object [] => .ok none
  | .object members => .ok (some members)
  | v => Extract.fail (.notAnObject v.kindName)

/-- A value as text, where null is no text. -/
def text? (name : Text) : Json → Extract (Option Text)
  | .text t => .ok (some t)
  | .number n => .ok (some n.print)
  | .null => .ok none
  | v => Extract.fail (.wrongType name v.kindName)

/-- The text of a field that must be there. -/
def field (members : Json.Members) (name : String) : Extract Text :=
  match members.find? name.toList with
  | none => Extract.fail (.missingField name.toList)
  | some v => do
    match ← text? name.toList v with
    | some t => return t
    | none => Extract.fail (.wrongType name.toList v.kindName)

/-- The text of a field that must be there and may be null. -/
def nullableField (members : Json.Members) (name : String) : Extract (Option Text) :=
  match members.find? name.toList with
  | none => Extract.fail (.missingField name.toList)
  | some v => text? name.toList v

/-- The integer of a field that must be there. -/
def integerField (members : Json.Members) (name : String) : Extract Int := do
  Extract.integer name.toList (← field members name)

/-- An event without members is empty; any other one gives what its members give. -/
def ofMembers (convert : Json.Members → Extract Outcome) (event : Json) : Extract Outcome := do
  match ← members? event with
  | none => return .empty
  | some members => convert members

end ReplayLog.AuditEvent

namespace ReplayLog.SqlAudit

open AuditEvent

def rules : List RejectionRule := [.cutShort, .questionMarks]

def layout : Layout where
  fields := [.statement, .parameter, .startTime, .session, .execTime, .schema]
  user := .omit
  parameter := .always

/-- The outcome of an event of the distributed database, from its members. -/
def ofMembers (zone : Zone) (members : Json.Members) : Extract Outcome := do
  let statement ← field members "sql"
  let parameter ← nullableField members "parameters"
  match firstRejection rules statement parameter with
  | some reason => return .ignore reason
  | none =>
    let startTime ← Extract.stamp .point zone (← field members "sql_time")
    let host ← field members "client_ip"
    let socket ← field members "client_port"
    let execTime ← Extract.thousandths "response_time".toList (← field members "response_time")
    let schema ← field members "db_name"
    return .emit ⟨statement, startTime, host ++ ':' :: socket, execTime, schema, none, parameter⟩

/-- The outcome of an event of the distributed database. -/
def convert (zone : Zone) : Json → Extract Outcome := AuditEvent.ofMembers (ofMembers zone)

end ReplayLog.SqlAudit

namespace ReplayLog.ServiceAudit

open AuditEvent

def rules : List RejectionRule := [.administrative "log".toList]

def layout : Layout where
  fields := [.statement, .startTime, .session, .execTime, .schema, .user]
  user := .always
  parameter := .never

/-- The outcome of an event of the database service, from its members. -/
def ofMembers (members : Json.Members) : Extract Outcome := do
  let statement ← field members "sql"
  match firstRejection rules statement none with
  | some reason => return .ignore reason
  | none =>
    let startTime ← integerField members "origin_time"
    let session ← field members "thread_id"
    let execTime ← integerField members "latency"
    let schema ← field members "db"
    let user ← field members "user"
    return .emit ⟨statement, startTime, session, execTime, schema, some user, none⟩

/-- The outcome of an event of the database service. -/
def convert : Json → Extract Outcome := AuditEvent.ofMembers ofMembers

end ReplayLog.ServiceAudit
