import ReplayLog.Record.Rejection

/-! # Records

A record is one statement with what a replay needs to know of it. An entry of a log gives a record,
or a reason to leave it out, or nothing at all. -/
namespace ReplayLog

/-- One statement to replay. Times are in microseconds, the start counted from the epoch. -/
structure Record where
  statement : Text
  startTime : Int
  session : Text
  execTime : Int
  schema : Text
  user : Option Text
  parameter : Option Text
  deriving DecidableEq

/-- What becomes of an entry. -/
inductive Outcome
  /-- A record to write. -/
  | emit (r : Record)
  /-- An entry left out for a reason. -/
  | ignore (reason : Rejection)
  /-- An entry without any content, which does not count. -/
  | empty
  deriving DecidableEq

end ReplayLog
