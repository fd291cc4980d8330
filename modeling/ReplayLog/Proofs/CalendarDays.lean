import ReplayLog.Time.Calendar

/-! # Days of the calendar

The day after a date is the next one of its month, else the first of the next month, else the first
of the next year. The number of days of a date is the one that counts these steps from 1 January 1970,
so dates are in the order of their days. -/
namespace ReplayLog

namespace Calendar

theorem monthLength_pos (year : Int) (month : Nat) : 1 ≤ monthLength year month := by
  unfold monthLength
  split
  · split <;> decide
  · split <;> decide

theorem monthLength_le (year : Int) (month : Nat) : monthLength year month ≤ 31 := by
  unfold monthLength
  split
  · split <;> decide
  · split <;> decide

/-- Each month comes right behind the one before it. -/
theorem daysBeforeMonth_succ (year : Int) {month : Nat} (h : 1 ≤ month) :
    daysBeforeMonth year (month + 1) = daysBeforeMonth year month + monthLength year month := by
  obtain ⟨m, rfl⟩ := Nat.exists_eq_add_of_le' h
  rw [daysBeforeMonth, Nat.add_sub_cancel, List.range_succ, List.foldl_append, daysBeforeMonth,
    Nat.add_sub_cancel]
  rfl

/-- A month is over before a later one begins. -/
theorem daysBeforeMonth_le_of_lt (year : Int) {month later : Nat} (h : 1 ≤ month)
    (hlt : month < later) :
    daysBeforeMonth year month + monthLength year month ≤ daysBeforeMonth year later := by
  induction hlt with
  | refl => exact Nat.le_of_eq (daysBeforeMonth_succ year h).symm
  | @step later hlater ih =>
    have hpos : 1 ≤ later := Nat.le_trans h (Nat.le_of_succ_le hlater)
    rw [Nat.succ_eq_add_one, daysBeforeMonth_succ year hpos]
    omega

theorem daysBeforeMonth_le (year : Int) (month : Nat) :
    daysBeforeMonth year month ≤ 31 * (month - 1) := by
  induction month with
  | zero => exact Nat.le_refl 0
  | succ month ih =>
    by_cases hmonth : month = 0
    · rw [hmonth]
      exact Nat.le_refl 0
    · have hlength := monthLength_le year month
      rw [daysBeforeMonth_succ year (by omega)]
      omega

def yearLength (year : Int) : Nat := if isLeap year then 366 else 365

/-- The twelve months make up the year. -/
theorem daysBeforeMonth_thirteen (year : Int) : daysBeforeMonth year 13 = yearLength year := by
  have hmonths : List.range 12 = [0, 1, 2, 3, 4, 5, 6, 7, 8, 9, 10, 11] := by decide
  rw [daysBeforeMonth, hmonths, yearLength]
  simp only [List.foldl_cons, List.foldl_nil, monthLength]
  cases isLeap year <;> rfl

/-- Each year comes right behind the one before it. -/
theorem daysBeforeYear_succ (year : Int) :
    daysBeforeYear (year + 1) = daysBeforeYear year + yearLength year := by
  simp only [daysBeforeYear, yearLength, isLeap, Bool.and_eq_true, Bool.or_eq_true, beq_iff_eq,
    bne_iff_ne, ne_eq]
  split <;> omega

theorem daysBeforeYear_le_of_lt {year later : Int} (h : year < later) :
    daysBeforeYear year + yearLength year ≤ daysBeforeYear later := by
  rw [← daysBeforeYear_succ]
  unfold daysBeforeYear
  omega

end Calendar

namespace Date

open Calendar

variable {d d' : Date}

def next (d : Date) : Date :=
  if h : d.day < monthLength d.year d.month then
    ⟨d.year, d.month, d.day + 1, d.month_pos, d.month_le, by omega, h⟩
  else if h' : d.month < 12 then
    ⟨d.year, d.month + 1, 1, by omega, h', by omega, monthLength_pos _ _⟩
  else ⟨d.year + 1, 1, 1, by omega, by omega, by omega, monthLength_pos _ _⟩

def epoch : Date := ⟨1970, 1, 1, by decide, by decide, by decide, by decide⟩

theorem epochDays_epoch : epoch.epochDays = 0 := by decide

structure IsCount (days : Date → Int) : Prop where
  epoch : days epoch = 0
  next : ∀ d : Date, days d.next = days d + 1

/-- The next day is one day later. -/
theorem epochDays_next (d : Date) : d.next.epochDays = d.epochDays + 1 := by
  have hday := d.day_le
  have hmonth := daysBeforeMonth_succ d.year d.month_pos
  unfold next
  split
  · simp only [epochDays]
    omega
  · split
    · simp only [epochDays]
      omega
    · have hlast : d.month = 12 := by
        have := d.month_le
        omega
      have hyear : daysBeforeMonth d.year (d.month + 1) = yearLength d.year := by
        rw [hlast, daysBeforeMonth_thirteen]
      have hfirst : daysBeforeMonth (d.year + 1) 1 = 0 := rfl
      simp only [epochDays, daysBeforeYear_succ, hfirst]
      omega

/-- The weekday of the next day is the next one. -/
theorem weekday_next (d : Date) :
    Weekday.ofEpochDays d.next.epochDays = Weekday.ofEpochDays d.epochDays + 1 := by
  rw [epochDays_next]
  unfold Weekday.ofEpochDays Weekday.ofNat
  apply Fin.ext
  simp only [Fin.ofNat, Fin.val_add]
  omega

def Before (d d' : Date) : Prop :=
  d.year < d'.year ∨ d.year = d'.year ∧
    (d.month < d'.month ∨ d.month = d'.month ∧ d.day < d'.day)

theorem day_le_yearLength (d : Date) : daysBeforeMonth d.year d.month + d.day ≤ yearLength d.year := by
  have hmonth := daysBeforeMonth_le_of_lt d.year d.month_pos (Nat.lt_succ_of_le d.month_le)
  have hday := d.day_le
  rw [daysBeforeMonth_thirteen] at hmonth
  omega

theorem Before.epochDays_lt (h : d.Before d') : d.epochDays < d'.epochDays := by
  have hpos := d'.day_pos
  rcases h with hyear | ⟨hyear, hmonth | ⟨hmonth, hday⟩⟩
  · have hyears := daysBeforeYear_le_of_lt hyear
    have hday := d.day_le_yearLength
    unfold epochDays
    omega
  · have hmonths := daysBeforeMonth_le_of_lt d.year d.month_pos hmonth
    have hday := d.day_le
    rw [epochDays, epochDays, ← hyear]
    omega
  · rw [epochDays, epochDays, ← hyear, ← hmonth]
    omega

theorem before_trichotomy (d d' : Date) : d.Before d' ∨ d = d' ∨ d'.Before d := by
  obtain ⟨year, month, day, _, _, _, _⟩ := d
  obtain ⟨year', month', day', _, _, _, _⟩ := d'
  simp only [Before, Date.mk.injEq]
  omega

theorem epochDays_injective (h : d.epochDays = d'.epochDays) : d = d' := by
  rcases before_trichotomy d d' with hbefore | heq | hbehind
  · exact absurd h (Int.ne_of_lt hbefore.epochDays_lt)
  · exact heq
  · exact absurd h.symm (Int.ne_of_lt hbehind.epochDays_lt)

/-- A count grows by as many as the days that have passed. -/
theorem IsCount.add {days : Date → Int} (h : IsCount days) (d : Date) (n : Nat) :
    days (Nat.repeat Date.next n d) = days d + n := by
  induction n with
  | zero => exact (Int.add_zero _).symm
  | succ n ih =>
    rw [Nat.repeat, h.next, ih]
    omega

/-- There is only one count of days. -/
theorem isCount_iff {days : Date → Int} : IsCount days ↔ days = epochDays := by
  have hcount : IsCount epochDays := ⟨epochDays_epoch, epochDays_next⟩
  refine ⟨fun h => funext fun d => ?_, fun h => h ▸ hcount⟩
  rcases Int.le_total 0 d.epochDays with hle | hle
  · have hreached : Nat.repeat Date.next d.epochDays.toNat epoch = d := by
      apply epochDays_injective
      rw [hcount.add, epochDays_epoch]
      omega
    have hdays := h.add epoch d.epochDays.toNat
    rw [hreached, h.epoch] at hdays
    omega
  · have hreached : Nat.repeat Date.next (-d.epochDays).toNat d = epoch := by
      apply epochDays_injective
      rw [hcount.add, epochDays_epoch]
      omega
    have hdays := h.add d (-d.epochDays).toNat
    rw [hreached, h.epoch] at hdays
    omega

end Date
end ReplayLog
