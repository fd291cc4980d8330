import ReplayLog.Entry.Extract
import ReplayLog.Record.Layout

/-! # Logs of compute nodes

An entry begins with a stamp and a block that names the user, the two parts of the client's address
and the schema. The statement stands between the first two length marks, its parameters behind the
second one, and the metrics, with the response time in milliseconds first, behind the parameters:

    2022-04-29 16:01:36.670 - [user=u,host=h,...,schema=s]  [V3] [len=8] select 1 [len=2] []
      # [rt=274,rows=106] # 143786862cc10000 -/
namespace ReplayLog.NodeLog

/-- The pattern that opens an entry; any character but a line feed may stand before the fraction. -/
def boundary : Pattern :=
  .ofChar '2'
    (Step.literal "0" ++ Step.digits 2 ++ Step.literal "-" ++ Step.digits 2 ++ Step.literal "-" ++
      Step.digits 2 ++ Step.literal " " ++ Step.digits 2 ++ Step.literal ":" ++ Step.digits 2 ++
      Step.literal ":" ++ Step.digits 2 ++ [.one (· != '\n')] ++ Step.digits 3 ++
      Step.literal " - [")

/-- The mark that gives a length. -/
def lengthMark : Pattern :=
  .ofChar '[' (Step.literal "len=" ++ [.one isDecimalDigit, .run isDecimalDigit] ++ Step.literal "]")

/-- The mark between the parameters and the metrics. -/
def metricsMark : Pattern := .ofChar ' ' (Step.literal "# [rt=")

/-- The marks inside the block of the client. -/
def clientMarks : List Pattern := [.char ',', .char '=', .char ']']

/-- A header has four words at least. -/
def headerRule : PieceRule := ⟨"polarx header tokens", 4⟩

def clientRule : PieceRule := ⟨"polarx client block", 8⟩

/-- An entry has two length marks at least. -/
def lengthRule : PieceRule := ⟨"polarx length markers", 3⟩

def metricsRule : PieceRule := ⟨"polarx metrics footer", 2⟩

def responseTimeRule : PieceRule := ⟨"polarx rt", 1⟩

/-- What the first words of an entry say. -/
structure Header where
  date : Text
  time : Text
  /-- The block that names the client. -/
  block : Text
  deriving DecidableEq

namespace Header

def words (entry : Text) : List Text := Pattern.cut [.blanks] entry

/-- The header of words: date, time, dash and the block of the client. -/
def ofWords : List Text → Extract Header
  | date :: time :: _ :: block :: _ => .ok ⟨date, time, block⟩
  | words => headerRule.fail words

def startTimeText (h : Header) : Text := h.date ++ ' ' :: h.time

end Header

/-- Who sent the statement, from where and for which schema. -/
structure Client where
  user : Text
  session : Text
  schema : Text
  deriving DecidableEq

/-- The client of a block; its session is the two parts of its address with a colon between them. -/
def Client.ofBlock (block : Text) : Extract Client :=
  match Pattern.cut clientMarks block with
  | _ :: user :: _ :: host :: _ :: socket :: _ :: schema :: _ =>
    .ok ⟨user, host ++ ':' :: socket, schema⟩
  | pieces => clientRule.fail pieces

/-- The statement, and all that stands between the second length mark and the next. -/
def statementAndTail (entry : Text) : Extract (Text × Text) :=
  match Pattern.cut [lengthMark] entry with
  | _ :: statement :: tail :: _ => .ok (statement.trim, tail.trim)
  | pieces => lengthRule.fail pieces

def parametersAndMetrics (tail : Text) : Extract (Text × Text) :=
  match Pattern.cut [metricsMark] tail with
  | parameters :: metrics :: _ => .ok (parameters, metrics)
  | pieces => metricsRule.fail pieces

/-- The response time of the metrics in microseconds, up to the first comma or equals sign. -/
def execTime (metrics : Text) : Extract Int :=
  match Pattern.cut Pattern.keyValue metrics with
  | value :: _ => Extract.millis "rt".toList value
  | pieces => responseTimeRule.fail pieces

/-- The parameters, unless the log wrote that there are none. -/
def parameter? (parameters : Text) : Option Text :=
  if parameters = "[]".toList then none else some parameters

def rules : List RejectionRule := [.questionMarks, .cutShort]

def layout : Layout where
  fields := [.startTime, .user, .session, .schema, .execTime, .statement, .parameter]
  user := .always
  parameter := .whenPresent

/-- The outcome of an entry. All parts are read before the rules are looked at. -/
def convert (zone : Zone) (entry : Text) : Extract Outcome := do
  let header ← Header.ofWords (Header.words entry)
  let startTime ← Extract.stamp .point zone header.startTimeText
  let client ← Client.ofBlock header.block
  let (statement, tail) ← statementAndTail entry
  let (parameters, metrics) ← parametersAndMetrics tail
  let execTime ← execTime metrics
  let parameter := parameter? parameters
  match firstRejection rules statement parameter with
  | some reason => return .ignore reason
  | none =>
    return .emit
      ⟨statement, startTime, client.session, execTime, client.schema, some client.user, parameter⟩

end ReplayLog.NodeLog
