import ReplayLog.Time.Calendar

/-! # Time zones

A zone is a fixed offset from UTC or a standard offset with a daylight-saving rule. A local time can
have no instant (inside a spring gap), one, or two (in the autumn); of two the earlier one counts. -/
namespace ReplayLog

/-- A day named by its month, the weekday and which one of these in the month it is; the fifth means
the last one. The clock changes at the given second of that day. -/
structure ChangeDay where
  month : Nat
  week : Nat
  weekday : Weekday
  second : Int

namespace ChangeDay

/-- Days from 1 January 1970 to the day in a year. -/
def epochDays (c : ChangeDay) (year : Int) : Int :=
  let first := Calendar.daysBeforeYear year + Calendar.daysBeforeMonth year c.month -
    Calendar.epochDay
  let ahead : Int := (c.weekday - Weekday.ofEpochDays first : Weekday).val
  let day := ahead + 7 * (c.week - 1 : Nat)
  first + if day < Calendar.monthLength year c.month then day else day - 7

/-- The local time of the change in a year, in seconds. -/
def localSeconds (c : ChangeDay) (year : Int) : Int := c.epochDays year * 86400 + c.second

end ChangeDay

/-- A standard offset and a daylight-saving offset, in seconds east of UTC, with the days on which
daylight saving begins (in standard time) and ends (in daylight-saving time). -/
structure DaylightRule where
  standard : Int
  daylight : Int
  start : ChangeDay
  stop : ChangeDay

namespace DaylightRule

/-- Whether daylight saving is on at an instant of a year. -/
def isOn (r : DaylightRule) (year instant : Int) : Bool :=
  let start := r.start.localSeconds year - r.standard
  let stop := r.stop.localSeconds year - r.daylight
  if start ≤ stop then start ≤ instant && instant < stop
  else !(stop ≤ instant && instant < start)

end DaylightRule

/-- How local times are placed. -/
inductive Zone
  /-- A fixed offset in seconds east of UTC. -/
  | fixed (east : Int)
  /-- A standard offset with daylight saving. -/
  | seasonal (rule : DaylightRule)

namespace Zone

/-- The offsets under which a local time of a year, in seconds, has an instant; the one with the
earliest instant comes first. -/
def offsets (year localSeconds : Int) : Zone → List Int
  | fixed east => [east]
  | seasonal r =>
    let inDaylight := if r.isOn year (localSeconds - r.daylight) then [r.daylight] else []
    let inStandard := if r.isOn year (localSeconds - r.standard) then [] else [r.standard]
    if r.standard ≤ r.daylight then inDaylight ++ inStandard else inStandard ++ inDaylight

/-- Whether the instant, in seconds, falls into the years of the calendar. -/
def inCalendar (instant : Int) : Bool :=
  (Calendar.daysBeforeYear Calendar.firstYear - Calendar.epochDay) * 86400 ≤ instant &&
    instant < (Calendar.daysBeforeYear (Calendar.lastYear + 1) - Calendar.epochDay) * 86400

/-- The earliest instant of a local time of a year, both in seconds. -/
def earliest? (z : Zone) (year localSeconds : Int) : Option Int :=
  match z.offsets year localSeconds with
  | [] => none
  | east :: _ =>
    let instant := localSeconds - east
    if inCalendar instant then some instant else none

end Zone

end ReplayLog
