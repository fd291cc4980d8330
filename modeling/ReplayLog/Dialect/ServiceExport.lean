import ReplayLog.Dialect.AuditEvent
import ReplayLog.Table.Row

/-! # Exported audit tables

The events of the database service can also be exported as a table with a header. Its rows go through
the same rules and into the same layout as the events themselves. -/
namespace ReplayLog.ServiceExport

/-- The value of a column that must be there. -/
def column (row : Row) (name : String) : Extract Text := (row.get name.toList).mapError .fault

/-- The outcome of a row. -/
def convert (zone : Zone) (row : Row) : Extract Outcome := do
  let statement ← column row "SQL command"
  match firstRejection ServiceAudit.rules statement none with
  | some reason => return .ignore reason
  | none =>
    let startTime ← Extract.stamp .exported zone (← column row "execute time")
    let session ← column row "thread id"
    let cost ← column row "cost time(microsecond)"
    let execTime ← Extract.integer "cost time(microsecond)".toList cost
    let schema ← column row "db name"
    let user ← column row "user"
    return .emit ⟨statement, startTime, session, execTime, schema, some user, none⟩

end ReplayLog.ServiceExport
