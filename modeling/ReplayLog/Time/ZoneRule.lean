import ReplayLog.Numeric.Integer
import ReplayLog.Time.Zone

/-! # Zones written as rules

The zone of a machine can be given as one word: a name with an offset counted west of UTC, and for
daylight saving a second name with the days on which it begins and ends, as in
`EST5EDT,M3.2.0,M11.1.0`. -/
namespace ReplayLog.ZoneRule

def number? (most : Nat) (t : Text) : Option (Nat × Text) :=
  let digits := (t.take most).takeWhile Char.isDigit
  if digits.isEmpty then none else some (digitsValue digits, t.drop digits.length)

/-- The text behind a character that must come first. -/
def behind? (c : Char) : Text → Option Text
  | [] => none
  | d :: t => if d == c then some t else none

/-- A name: letters, or anything between angle brackets. -/
def behindName? (t : Text) : Option Text :=
  match t with
  | '<' :: r => behind? '>' (r.dropWhile (· != '>'))
  | _ => if 3 ≤ (t.takeWhile Char.isAlpha).length then some (t.dropWhile Char.isAlpha) else none

/-- Hours and, behind colons, perhaps minutes and seconds, in seconds. -/
def clock? (t : Text) : Option (Int × Text) := do
  let (negative, unsigned) := match t with
    | '-' :: r => (true, r)
    | '+' :: r => (false, r)
    | r => (false, r)
  let (hours, r) ← number? 3 unsigned
  let (minutes, r) ← match behind? ':' r with
    | some r => number? 2 r
    | none => some (0, r)
  let (seconds, r) ← match behind? ':' r with
    | some r => number? 2 r
    | none => some (0, r)
  let total : Int := hours * 3600 + minutes * 60 + seconds
  return (if negative then -total else total, r)

/-- A day on which the clock changes, by month, week and weekday, at two o'clock unless a time is
given. -/
def changeDay? (t : Text) : Option (ChangeDay × Text) := do
  let (month, r) ← number? 2 (← behind? 'M' t)
  let (week, r) ← number? 1 (← behind? '.' r)
  let (weekday, r) ← number? 1 (← behind? '.' r)
  let (second, r) ← match behind? '/' r with
    | some r => clock? r
    | none => some (7200, r)
  if 1 ≤ month ∧ month ≤ 12 ∧ 1 ≤ week ∧ week ≤ 5 ∧ weekday ≤ 6 then
    return (⟨month, week, .ofNat weekday, second⟩, r)
  else none

/-- The zone that a rule describes. Daylight saving is one hour ahead unless an offset is given. -/
def read? (t : Text) : Option Zone := do
  let (west, r) ← clock? (← behindName? t)
  if r.isEmpty then return .fixed (-west)
  let r ← behindName? r
  let (daylightWest, r) := (clock? r).getD (west - 3600, r)
  let (start, r) ← changeDay? (← behind? ',' r)
  let (stop, r) ← changeDay? (← behind? ',' r)
  if r.isEmpty then return .seasonal ⟨-west, -daylightWest, start, stop⟩ else none

end ReplayLog.ZoneRule
