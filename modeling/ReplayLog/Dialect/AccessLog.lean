import ReplayLog.Entry.Extract
import ReplayLog.Record.Layout

/-! # Access logs of the analytic database

An entry begins with a stamp in brackets and a header of words, among them the thread, the client and
the total time in milliseconds. A second stamp in brackets, with a number behind it, opens the
statement, and a backslash with a semicolon closes it:

    [2023-02-10 00:03:15,398] INFO [thread-255] Log.info - Client=10.0.0.1 Total_time=0 ...
      - [2023-02-10 00:03:15 398] 1000 select 1\;process=...

The log names neither schema nor user. -/
namespace ReplayLog.AccessLog

/-- A bracket and a date of this century, up to the seconds. -/
def dateSteps : List Step :=
  Step.literal "20" ++ Step.digits 2 ++ Step.literal "-" ++ Step.digits 2 ++ Step.literal "-" ++
    Step.digits 2 ++ Step.literal " " ++ Step.digits 2 ++ Step.literal ":" ++ Step.digits 2 ++
    Step.literal ":" ++ Step.digits 2

/-- The pattern that opens an entry. -/
def boundary : Pattern :=
  .ofChar '[' (dateSteps ++ Step.literal "," ++ Step.digits 3 ++ Step.literal "] ")

/-- The stamp of the request with its number, which stands before the statement. -/
def requestStamp : Pattern :=
  .ofChar '['
    (dateSteps ++ Step.literal " " ++ Step.digits 3 ++ Step.literal "] " ++
      [.run isDecimalDigit] ++ Step.literal " ")

/-- The mark behind the statement. -/
def statementEnd : Pattern := .ofChar '\\' (Step.literal ";")

/-- A header has eight words at least. -/
def headerRule : PieceRule := ⟨"adb header tokens", 8⟩

/-- Something stands behind the first request stamp or statement end. -/
def statementRule : PieceRule := ⟨"adb sql body", 2⟩

def totalTimeRule : PieceRule := ⟨"adb total time", 2⟩

/-- What the first words of an entry say. -/
structure Header where
  date : Text
  time : Text
  thread : Text
  client : Text
  totalTime : Text
  deriving DecidableEq

namespace Header

def words (entry : Text) : List Text := Pattern.cut [.blanks] entry

/-- The header of words: date, time, level, thread, logger, dash, client and total time. -/
def ofWords : List Text → Extract Header
  | date :: time :: _ :: thread :: _ :: _ :: client :: totalTime :: _ =>
    .ok ⟨date, time, thread, client, totalTime⟩
  | words => headerRule.fail words

/-- The stamp without its brackets. -/
def startTimeText (h : Header) : Text := h.date.drop 1 ++ ' ' :: h.time.dropLast

def session (h : Header) : Text := h.client ++ h.thread

/-- The total time in microseconds, from behind the first comma or equals sign. -/
def execTime (h : Header) : Extract Int :=
  match Pattern.cut Pattern.keyValue h.totalTime with
  | _ :: value :: _ => Extract.millis "Total_time".toList value
  | pieces => totalTimeRule.fail pieces

end Header

/-- The second piece of the entry when it is cut at request stamps and statement ends. -/
def statement (entry : Text) : Extract Text :=
  match Pattern.cut [requestStamp, statementEnd] entry with
  | _ :: piece :: _ => .ok piece.trim
  | pieces => statementRule.fail pieces

def rules : List RejectionRule := [.cutShort, .administrative "SYNC".toList]

def layout : Layout := ⟨Field.sorted, .always, .never⟩

/-- The outcome of an entry. All parts are read before the rules are looked at. -/
def convert (zone : Zone) (schema entry : Text) : Extract Outcome := do
  let header ← Header.ofWords (Header.words entry)
  let startTime ← Extract.stamp .comma zone header.startTimeText
  let statement ← statement entry
  let execTime ← header.execTime
  match firstRejection rules statement none with
  | some reason => return .ignore reason
  | none =>
    return .emit ⟨statement, startTime, header.session, execTime, schema, some [], none⟩

end ReplayLog.AccessLog
