import ReplayLog.Numeric.Integer
import ReplayLog.Text.Blank

/-! # Offsets from UTC

An offset is written `Z`, `UTC` or as a sign with hours and perhaps minutes behind a colon. The two
numbers are read with signs of their own and combined within 32 bits, so an offset can also stop the
program by an overflow. -/
namespace ReplayLog

/-- Why a text is no offset from UTC. The texts are those without the blanks around them. -/
inductive OffsetFault
  | sign (text : Text)
  | hours (text : Text)
  | minutes (text : Text)
  | range (text : Text)
  deriving DecidableEq, Repr

def OffsetFault.message : OffsetFault → String
  | .sign t => s!"offset must start with + or -: '{String.ofList t}'"
  | .hours t => s!"invalid offset hours: '{String.ofList t}'"
  | .minutes t => s!"invalid offset minutes: '{String.ofList t}'"
  | .range t => s!"offset out of range: '{String.ofList t}'"

namespace Offset

/-- Splits a text at its first colon; a text without one has the minutes `0`. -/
def splitMinutes (t : Text) : Text × Text :=
  match t.dropWhile (· != ':') with
  | _ :: minutes => (t.takeWhile (· != ':'), minutes)
  | [] => (t, ['0'])

/-- `sign * (hours * 3600 + minutes * 60)`, every step within 32 bits. -/
def seconds (sign hours minutes : Int) : Except Overflow Int := do
  let h ← Span.int32.multiply hours 3600
  let m ← Span.int32.multiply minutes 60
  Span.int32.multiply sign (← Span.int32.add h m)

/-- Hours and minutes behind a sign. The two numbers may carry signs of their own. -/
def readSigned (text : Text) (sign : Int) (unsigned : Text) : Except (Halt OffsetFault) Int := do
  let (h, m) := splitMinutes unsigned
  let hours ← (Integer.read .int32 h).mapError fun _ => .fault (.hours text)
  let minutes ← (Integer.read .int32 m).mapError fun _ => .fault (.minutes text)
  let east ← (seconds sign hours minutes).mapError .overflow
  if -86400 < east ∧ east < 86400 then return east else throw (.fault (.range text))

/-- Reads `z`, `utc` or a sign with hours and minutes as seconds east of UTC. -/
def read (t : Text) : Except (Halt OffsetFault) Int :=
  let text := t.trim
  if text.sameIgnoringCase ['z'] || text.sameIgnoringCase "utc".toList then .ok 0
  else match text with
    | '+' :: unsigned => readSigned text 1 unsigned
    | '-' :: unsigned => readSigned text (-1) unsigned
    | _ => .error (.fault (.sign text))

end Offset
end ReplayLog
