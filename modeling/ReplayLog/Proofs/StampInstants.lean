import Mathlib.Data.Rat.Floor
import Mathlib.Tactic.IntervalCases
import Mathlib.Tactic.Linarith
import Mathlib.Tactic.NormNum
import Mathlib.Tactic.Ring
import ReplayLog.Proofs.ExportedStamps

/-! # Instants of written times

A time that is written with a fraction of one to nine digits has an exact instant in a zone of a fixed
offset. Behind a point or a comma it is read as its instant in microseconds, rounded down, before
the epoch too; an export writes it without its fraction, and then it is read exactly. -/
namespace ReplayLog

/-- A local time of a year of four digits with the digits of its fraction. -/
structure WrittenTime where
  date : Date
  hour : Nat
  minute : Nat
  second : Nat
  fraction : Text
  year : 0 ≤ date.year ∧ date.year ≤ 9999
  hour_le : hour ≤ 23
  minute_le : minute ≤ 59
  second_le : second ≤ 59
  fraction_digits : ∀ c ∈ fraction, c.isDigit = true
  fraction_length : 1 ≤ fraction.length ∧ fraction.length ≤ 9

namespace WrittenTime

def whole (t : WrittenTime) : LocalTime := ⟨t.date, t.hour, t.minute, t.second, 0⟩

def render (t : WrittenTime) (mark : Char) : Text :=
  t.date.print ++ ' ' :: (t.whole.printClock ++ mark :: t.fraction)

def renderExported (t : WrittenTime) (weekday month : Text) : Text :=
  weekday ++ ' ' :: (month ++ ' ' :: (padded 2 t.date.day ++ ' ' ::
    (t.whole.printClock ++ ' ' :: ("CST".toList ++ ' ' :: padded 4 t.date.year.toNat))))

/-- Seconds from the epoch to the time in a zone so far east of UTC, without the fraction. -/
def seconds (t : WrittenTime) (east : Int) : Int :=
  t.date.epochDays * 86400 + t.hour * 3600 + t.minute * 60 + t.second - east

def instant (t : WrittenTime) (east : Int) : ℚ :=
  t.seconds east + digitsValue t.fraction / 10 ^ t.fraction.length

variable (t : WrittenTime) {east : Int}

theorem printable : t.whole.Printable 0 :=
  ⟨t.year, t.hour_le, t.minute_le, t.second_le.trans (by decide), by decide, rfl⟩

theorem made : (t.whole.parts t.fraction).Made Char.isDigit :=
  t.whole.made_parts (List.ne_nil_of_length_pos t.fraction_length.1) t.fraction_digits

theorem seconds_whole : t.whole.seconds - east = t.seconds east := by
  simp only [LocalTime.seconds, whole, seconds]
  omega

/-- Nine digits are counted, and cut off behind the sixth. -/
theorem micros_eq_div : (t.whole.parts t.fraction).micros =
    1000000 * digitsValue t.fraction / 10 ^ t.fraction.length := by
  obtain ⟨-, hlength⟩ := t.fraction_length
  have htake : t.fraction.take 9 = t.fraction := List.take_of_length_le hlength
  rw [StampParts.micros]
  change digitsValue ((t.fraction.take 9).rightpad 9 '0') / 1000 = _
  rw [htake, digitsValue_rightpad]
  generalize t.fraction.length = width at hlength
  interval_cases width <;> omega

/-- The microseconds of the instant, rounded down. -/
theorem floor_instant : ⌊10 ^ 6 * t.instant east⌋ =
    t.seconds east * 1000000 + (t.whole.parts t.fraction).micros := by
  have hsplit : 10 ^ 6 * t.instant east = ((t.seconds east * 1000000 : Int) : ℚ) +
      ((1000000 * digitsValue t.fraction : Nat) : ℚ) / ((10 ^ t.fraction.length : Nat) : ℚ) := by
    rw [instant]
    push_cast
    ring
  rw [hsplit, Int.floor_intCast_add, micros_eq_div]
  congr 1
  exact Rat.floor_natCast_div_natCast _ _

/-- A rendered time is read as the microseconds of its instant. -/
theorem read_render (heast : -86400 < east ∧ east < 86400) (form : StampForm)
    (hform : form ≠ .exported) :
    Stamp.read form (.fixed east) (t.render form.mark) = .ok ⌊10 ^ 6 * t.instant east⌋ := by
  obtain ⟨hread, -⟩ := Stamp.read_of_text t.made.decimal form hform (.fixed east) rfl
  rw [floor_instant, ← seconds_whole, ← LocalTime.reading_parts t.printable heast t.fraction form]
  exact hread t.made

/-- A fraction of six digits has no part of a microsecond. -/
theorem cast_floor_instant (h : t.fraction.length ≤ 6) :
    ((⌊10 ^ 6 * t.instant east⌋ : Int) : ℚ) = 10 ^ 6 * t.instant east := by
  have hpow : (10 : ℚ) ^ 6 = 10 ^ t.fraction.length * 10 ^ (6 - t.fraction.length) := by
    rw [← pow_add, Nat.add_sub_cancel' h]
  have hwhole : 10 ^ 6 * t.instant east = ((t.seconds east * 10 ^ 6 +
      (digitsValue t.fraction * 10 ^ (6 - t.fraction.length) : Nat) : Int) : ℚ) := by
    have hscaled : 10 ^ 6 * (digitsValue t.fraction / 10 ^ t.fraction.length : ℚ) =
        digitsValue t.fraction * 10 ^ (6 - t.fraction.length) := by
      rw [hpow]
      field_simp
    rw [instant, mul_add, hscaled]
    push_cast
    ring
  rw [hwhole, Int.floor_intCast]

/-- A written time is read as its instant in microseconds: rounded down behind a point or a comma,
and exactly, without its fraction, in an export, which is not read with any other weekday. So
stamps are in the order of their instants, strictly where these are a microsecond apart or have no
part of one. The days of dates that instants are made of are the one count that begins on 1 January
1970, a Thursday. -/
theorem read_instant (heast : -86400 < east ∧ east < 86400) :
    (Stamp.read .point (.fixed east) (t.render '.') = .ok ⌊10 ^ 6 * t.instant east⌋ ∧
      Stamp.read .comma (.fixed east) (t.render ',') = .ok ⌊10 ^ 6 * t.instant east⌋) ∧
    (∀ weekday month : Text, weekday.length = 3 →
      month.sameIgnoringCase t.date.monthName = true →
        let text := t.renderExported weekday month
        (weekday.sameIgnoringCase t.date.weekdayName = true →
          Stamp.read .exported (.fixed east) text = .ok (10 ^ 6 * t.seconds east)) ∧
        (weekday.sameIgnoringCase t.date.weekdayName = false →
          ∃ cause, Stamp.read .exported (.fixed east) text =
            .error (.invalid text .exported cause))) ∧
    (∀ (t' : WrittenTime) (east' : Int), -86400 < east' ∧ east' < 86400 →
      ∀ form form', form ≠ .exported → form' ≠ .exported → ∀ m m',
        Stamp.read form (.fixed east) (t.render form.mark) = .ok m →
        Stamp.read form' (.fixed east') (t'.render form'.mark) = .ok m' →
          (t.instant east ≤ t'.instant east' → m ≤ m') ∧
          (t.instant east + 1 / 10 ^ 6 ≤ t'.instant east' → m < m') ∧
          (t.fraction.length ≤ 6 → t'.fraction.length ≤ 6 →
            (t.instant east < t'.instant east' ↔ m < m'))) ∧
    (∀ days, Date.IsCount days ↔ days = Date.epochDays) ∧
    Date.epoch.weekdayName = "Thu".toList ∧
    ∀ d : Date, Weekday.ofEpochDays d.next.epochDays = Weekday.ofEpochDays d.epochDays + 1 := by
  refine ⟨⟨?_, ?_⟩, ?_, ?_, fun days => Date.isCount_iff, by decide, Date.weekday_next⟩
  · exact t.read_render heast .point (by decide)
  · exact t.read_render heast .comma (by decide)
  · intro weekday month hlength hmonth text
    obtain ⟨hread, hfault⟩ := Stamp.read_exportedText t.printable hlength hmonth heast
    refine ⟨fun hsame => ?_, hfault⟩
    refine (hread hsame).trans ?_
    rw [seconds_whole, mul_comm]
    rfl
  · intro t' east' heast' form form' hform hform' m m' hm hm'
    rw [t.read_render heast form hform] at hm
    rw [t'.read_render heast' form' hform'] at hm'
    obtain rfl := Except.ok.inj hm
    obtain rfl := Except.ok.inj hm'
    refine ⟨fun hle => ?_, fun hle => ?_, fun hlength hlength' => ?_⟩
    · exact Int.floor_le_floor (by linarith)
    · have hnext : 10 ^ 6 * t.instant east + 1 ≤ 10 ^ 6 * t'.instant east' := by linarith
      have := Int.floor_le_floor hnext
      rw [Int.floor_add_one] at this
      omega
    · rw [← Int.cast_lt (R := ℚ), t.cast_floor_instant hlength, t'.cast_floor_instant hlength']
      constructor <;> intro hlt <;> linarith

/-- A time before the epoch on the last day of a leap year, with a part of a microsecond. -/
def lastOfLeapYear : WrittenTime where
  date := (Date.ofFields? 1964 12 31).get rfl
  hour := 23
  minute := 59
  second := 59
  fraction := "9999995".toList
  year := by decide
  hour_le := by decide
  minute_le := by decide
  second_le := by decide
  fraction_digits := List.all_eq_true.1 rfl
  fraction_length := by decide

/-- Less than a microsecond later, as a clock an hour behind shows it. -/
def laterInLeapYear : WrittenTime :=
  { lastOfLeapYear with hour := 22, hour_le := by decide, fraction := "9999999".toList,
                        fraction_digits := List.all_eq_true.1 rfl, fraction_length := by decide }

/-- The instants of these times are read in their order, the first one rounded down, and an export
with the weekday in large letters is read and one with another weekday is not. -/
theorem read_instant_lastOfLeapYear :
    Stamp.read .point (.fixed 0) (lastOfLeapYear.render '.') =
        .ok ⌊10 ^ 6 * lastOfLeapYear.instant 0⌋ ∧
      Stamp.read .exported (.fixed 0) "THU dec 31 23:59:59 CST 1964".toList =
        .ok (10 ^ 6 * lastOfLeapYear.seconds 0) ∧
      (∃ cause, Stamp.read .exported (.fixed 0) "Fri Dec 31 23:59:59 CST 1964".toList =
        .error (.invalid "Fri Dec 31 23:59:59 CST 1964".toList .exported cause)) ∧
      ∀ m m', Stamp.read .point (.fixed 0) (lastOfLeapYear.render '.') = .ok m →
        Stamp.read .comma (.fixed (-3600)) (laterInLeapYear.render ',') = .ok m' → m ≤ m' := by
  obtain ⟨⟨hpoint, -⟩, hexported, horder, -⟩ := lastOfLeapYear.read_instant
    (show -86400 < (0 : Int) ∧ (0 : Int) < 86400 by decide)
  refine ⟨hpoint, ?_, ?_, fun m m' hm hm' => ?_⟩
  · exact (hexported "THU".toList "dec".toList rfl (by decide +kernel)).1 (by decide +kernel)
  · exact (hexported "Fri".toList "Dec".toList rfl (by decide +kernel)).2 (by decide +kernel)
  · refine (horder laterInLeapYear (-3600) (by decide) .point .comma (by decide) (by decide) m m'
      hm hm').1 ?_
    have hvalue : digitsValue lastOfLeapYear.fraction = 9999995 := by decide
    have hvalue' : digitsValue laterInLeapYear.fraction = 9999999 := by decide
    have hlength : lastOfLeapYear.fraction.length = 7 := by decide
    have hlength' : laterInLeapYear.fraction.length = 7 := by decide
    have hseconds : lastOfLeapYear.seconds 0 = -157766401 := by decide +kernel
    have hseconds' : laterInLeapYear.seconds (-3600) = -157766401 := by decide +kernel
    rw [instant, instant, hvalue, hvalue', hlength, hlength', hseconds, hseconds']
    norm_num

end WrittenTime
end ReplayLog
