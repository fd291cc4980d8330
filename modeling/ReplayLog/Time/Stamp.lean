import ReplayLog.Numeric.Integer
import ReplayLog.Text.Blank
import ReplayLog.Time.Zone

/-! # Time stamps

Logs write a local time in one of three forms: a date and a time with a fraction behind a point, the
same with a comma, or the form of exports with names of weekday and month and the letters CST. A
stamp is read as microseconds since the epoch in a zone. The first two forms need their fraction;
the weekday of the third must agree with its date; the letters CST say nothing about the zone. -/
namespace ReplayLog

/-- The three written forms of a local time. -/
inductive StampForm
  | point
  | comma
  | exported
  deriving DecidableEq, Repr

namespace StampForm

/-- The name of a form in diagnostics, with a percent sign before the letter of each field. -/
def name : StampForm → String
  | point => "%Y-%m-%d %H:%M:%S%.f"
  | comma => "%Y-%m-%d %H:%M:%S,%f"
  | exported => "%a %b %d %H:%M:%S CST %Y"

end StampForm

/-- Why a text does not have its form. -/
inductive FormFault
  | tooShort
  | tooLong
  | unexpected
  | outOfRange
  | impossible
  deriving DecidableEq, Repr

def FormFault.message : FormFault → String
  | .tooShort => "premature end of input"
  | .tooLong => "trailing input"
  | .unexpected => "input contains invalid characters"
  | .outOfRange => "input is out of range"
  | .impossible => "no possible date and time matching input"

/-- Why a text is no stamp. -/
inductive StampFault
  | missingFraction (text : Text)
  | invalid (text : Text) (form : StampForm) (cause : FormFault)
  | nonexistent (text : Text)
  deriving DecidableEq, Repr

/-- The wording of a fault, without its cause. -/
def StampFault.message : StampFault → String
  | .missingFraction t => s!"timestamp '{String.ofList t}' has no fractional seconds"
  | .invalid t form _ => s!"invalid timestamp '{String.ofList t}' (expected {form.name})"
  | .nonexistent t => s!"local time '{String.ofList t}' does not exist in the configured time zone"

/-- A local time. Second 60 is the second after the 59th. -/
structure LocalTime where
  date : Date
  hour : Nat
  minute : Nat
  second : Nat
  micros : Nat

namespace LocalTime

/-- Seconds from the epoch to the local time as if it were UTC. -/
def seconds (t : LocalTime) : Int :=
  t.date.epochDays * 86400 + (t.hour * 3600 + t.minute * 60 + t.second : Nat)

/-- Seconds by which the time is past the 59th second of its minute. -/
def leap (t : LocalTime) : Nat := t.second - 59

/-- Microseconds from the epoch to the local time in a zone, if it exists there. A second 60 exists
where the second before it does. -/
def epochMicros? (t : LocalTime) (zone : Zone) : Option Int :=
  (zone.earliest? t.date.year (t.seconds - t.leap)).map fun instant =>
    (instant + t.leap) * 1000000 + t.micros

end LocalTime

abbrev StampReader := StateT Text (Except FormFault)

namespace StampReader

def literal (l : String) : StampReader Unit := fun t =>
  if t.byteSize < l.utf8ByteSize then .error .tooShort
  else if l.toList.isPrefixOf t then .ok ((), t.drop l.length)
  else .error .unexpected

/-- Skips blank characters, if any. -/
def blanks : StampReader Unit := fun t => .ok ((), t.trimStart)

/-- Takes the digits at the start, at least one and at most so many. -/
def digits (most : Nat) : StampReader Nat := fun t =>
  match t with
  | [] => .error .tooShort
  | c :: _ =>
    if c.isDigit then
      let run := (t.take most).takeWhile Char.isDigit
      if Span.int64.holds (digitsValue run) then .ok (digitsValue run, t.drop run.length)
      else .error .outOfRange
    else .error .unexpected

/-- Takes a number of one or two digits that must lie between two bounds. -/
def field (low high : Nat) : StampReader Nat := do
  blanks
  let n ← digits 2
  if low ≤ n ∧ n ≤ high then return n else throw .outOfRange

/-- Takes the digits of a year: four at most, or any number of them behind a sign. -/
def yearNumber : StampReader Int := fun t =>
  match t with
  | '-' :: t => (digits t.length t).map fun (n, rest) => (-n, rest)
  | '+' :: t => (digits t.length t).map fun (n, rest) => (n, rest)
  | t => (digits 4 t).map fun (n, rest) => (n, rest)

/-- Takes a year of 32 bits. -/
def year : StampReader Int := do
  blanks
  let y ← yearNumber
  if Span.int32.holds y then return y else throw .outOfRange

/-- Takes one of several names of three letters in any case and gives its place among them. -/
def name (names : List String) : StampReader Nat := fun t =>
  if t.byteSize < 3 then .error .tooShort
  else match names.findIdx? fun n => n.toList.map Char.toLower == (t.take 3).map Char.toLower with
    | some i => .ok (i, t.drop 3)
    | none => .error .unexpected

/-- Takes the fraction behind a point, if there is a point, as microseconds: nine digits count, and
the rest of a microsecond is cut off. -/
def fraction : StampReader Nat := fun t =>
  match t with
  | '.' :: t =>
    match digits 9 t with
    | .ok _ =>
      let places := (t.take 9).takeWhile Char.isDigit
      let nanos := digitsValue (places.rightpad 9 '0')
      .ok (nanos / 1000, t.dropWhile Char.isDigit)
    | .error fault => .error fault
  | t => .ok (0, t)

/-- Takes hour, minute and second. -/
def clock : StampReader (Nat × Nat × Nat) := do
  let hour ← field 0 23
  literal ":"
  let minute ← field 0 59
  literal ":"
  let second ← field 0 60
  return (hour, minute, second)

/-- The date of the fields, within the calendar. -/
def dateOf (y : Int) (month day : Nat) : StampReader Date := do
  if Calendar.firstYear ≤ y ∧ y ≤ Calendar.lastYear then
    match Date.ofFields? y month day with
    | some d => return d
    | none => throw .outOfRange
  else throw .outOfRange

/-- Fails unless the whole text was taken. -/
def finish : StampReader Unit := fun t => if t.isEmpty then .ok ((), []) else .error .tooLong

/-- A numeric date, a time and a fraction. -/
def numeric : StampReader LocalTime := do
  let y ← year
  literal "-"
  let month ← field 1 12
  literal "-"
  let day ← field 1 31
  blanks
  let (hour, minute, second) ← clock
  let micros ← fraction
  finish
  let date ← dateOf y month day
  return ⟨date, hour, minute, second, micros⟩

def named : StampReader LocalTime := do
  let weekday ← name Weekday.names
  blanks
  let month ← name Calendar.monthNames
  blanks
  let day ← field 1 31
  blanks
  let (hour, minute, second) ← clock
  blanks
  literal "CST"
  blanks
  let y ← year
  finish
  let date ← dateOf y (month + 1) day
  if (Weekday.ofEpochDays date.epochDays).val = weekday then
    return ⟨date, hour, minute, second, 0⟩
  else throw .impossible

end StampReader

namespace Stamp

/-- The text with its first comma turned into a point. -/
def firstCommaToPoint (t : Text) : Text :=
  match t.dropWhile (· != ',') with
  | _ :: rest => t.takeWhile (· != ',') ++ '.' :: rest
  | [] => t

/-- Whether there is a point behind the last colon. -/
def hasFraction (t : Text) : Bool := (t.reverse.takeWhile (· != ':')).contains '.'

/-- The local time of a text whose fraction, if it needs one, is behind a point. -/
def readLocal (form : StampForm) (t : Text) : Except FormFault LocalTime :=
  (match form with
    | .point | .comma => StampReader.numeric
    | .exported => StampReader.named).run' t

/-- Reads a stamp of a form as microseconds since the epoch. -/
def read (form : StampForm) (zone : Zone) (text : Text) : Except StampFault Int :=
  let t := if form = .comma then firstCommaToPoint text else text
  if form ≠ .exported ∧ !hasFraction t then .error (.missingFraction text)
  else match readLocal form t with
    | .error cause => .error (.invalid text form cause)
    | .ok localTime =>
      match localTime.epochMicros? zone with
      | some micros => .ok micros
      | none => .error (.nonexistent text)

end Stamp
end ReplayLog
