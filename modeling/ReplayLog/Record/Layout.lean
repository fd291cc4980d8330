import ReplayLog.Json.Printer
import ReplayLog.Record.Basic

/-! # Layouts

A record is written as one JSON object. A layout fixes the order of its keys and whether the keys of
user and parameter appear. -/
namespace ReplayLog

/-- The keys of a written record. -/
inductive Field
  | statement
  | startTime
  | session
  | execTime
  | schema
  | user
  | parameter
  deriving DecidableEq, Repr

namespace Field

def key : Field → String
  | statement => "convertSqlText"
  | startTime => "startTime"
  | session => "session"
  | execTime => "execTime"
  | schema => "schema"
  | user => "user"
  | parameter => "parameter"

/-- All fields, in the order of their keys. -/
def sorted : List Field := [statement, execTime, parameter, schema, session, startTime, user]

end Field

/-- Whether the key of the user appears. -/
inductive UserPolicy
  | omit
  /-- Always; a missing user is written as an empty text. -/
  | always
  deriving DecidableEq, Repr

/-- Whether the key of the parameter appears. -/
inductive ParameterPolicy
  | never
  /-- Only where there is a parameter that is not empty. -/
  | whenPresent
  /-- Always; a missing parameter is written as an empty text. -/
  | always
  deriving DecidableEq, Repr

/-- How a record is laid out. A key listed twice appears once, at its first place. -/
structure Layout where
  fields : List Field
  user : UserPolicy
  parameter : ParameterPolicy

namespace Layout

/-- The value written under a key, if the key appears. -/
def value? (l : Layout) (r : Record) : Field → Option Json
  | .statement => some (.text r.statement)
  | .startTime => some (.number (.integer r.startTime))
  | .session => some (.text r.session)
  | .execTime => some (.number (.integer r.execTime))
  | .schema => some (.text r.schema)
  | .user => match l.user with
    | .omit => none
    | .always => some (.text (r.user.getD []))
  | .parameter => match l.parameter with
    | .never => none
    | .whenPresent => if (r.parameter.getD []).isEmpty then none else r.parameter.map .text
    | .always => some (.text (r.parameter.getD []))

/-- Adds the member of a key, if the key appears. -/
def addField (l : Layout) (r : Record) (members : Json.Members) (f : Field) : Json.Members :=
  match l.value? r f with
  | some v => members.put f.key.toList v
  | none => members

def members (l : Layout) (r : Record) : Json.Members := l.fields.foldl (l.addField r) []

/-- The line of a written record, without its end. -/
def line (l : Layout) (r : Record) : Text := (Json.object (l.members r)).print

end Layout
end ReplayLog
