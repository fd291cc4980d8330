import ReplayLog.Proofs.CalendarDays
import ReplayLog.Proofs.StampReading

/-! # The parts of numeric stamps

A numeric stamp has a date, a time and a fraction, each part of it in so many digits. It is read as
its parts say if all their digits are ASCII digits, unless some part is outside the calendar or the
clock. With any other decimal digit in the place of an ASCII digit it is not read. -/
namespace ReplayLog

structure StampParts where
  year : Text
  month : Text
  day : Text
  hour : Text
  minute : Text
  second : Text
  fraction : Text

namespace StampParts

def date (s : StampParts) : Text := s.year ++ '-' :: (s.month ++ '-' :: s.day)

def clock (s : StampParts) : Text := s.hour ++ ':' :: (s.minute ++ ':' :: s.second)

def text (s : StampParts) (mark : Char) : Text :=
  s.date ++ ' ' :: (s.clock ++ mark :: s.fraction)

/-- All parts are as wide as a stamp has them and of characters of a class. -/
structure Made (p : Char → Bool) (s : StampParts) : Prop where
  year : IsRun p 4 s.year
  month : IsRun p 2 s.month
  day : IsRun p 2 s.day
  hour : IsRun p 2 s.hour
  minute : IsRun p 2 s.minute
  second : IsRun p 2 s.second
  fraction : ∀ c ∈ s.fraction, p c = true
  fraction_ne_nil : s.fraction ≠ []

theorem Made.decimal {s : StampParts} (h : s.Made Char.isDigit) : s.Made isDecimalDigit :=
  ⟨h.year.decimal, h.month.decimal, h.day.decimal, h.hour.decimal, h.minute.decimal,
    h.second.decimal, fun c hc => isDecimalDigit_of_isDigit (h.fraction c hc), h.fraction_ne_nil⟩

/-- The microseconds of the fraction: nine digits count. -/
def micros (s : StampParts) : Nat := digitsValue ((s.fraction.take 9).rightpad 9 '0') / 1000

def OnClock (s : StampParts) : Prop :=
  digitsValue s.hour ≤ 23 ∧ digitsValue s.minute ≤ 59 ∧ digitsValue s.second ≤ 60

instance (s : StampParts) : Decidable s.OnClock :=
  inferInstanceAs (Decidable (_ ∧ _ ∧ _))

def localTime? (s : StampParts) : Option LocalTime :=
  if s.OnClock then
    (Date.ofFields? (digitsValue s.year) (digitsValue s.month) (digitsValue s.day)).map fun d =>
      ⟨d, digitsValue s.hour, digitsValue s.minute, digitsValue s.second, s.micros⟩
  else none

end StampParts

def StampForm.mark : StampForm → Char
  | .comma => ','
  | _ => '.'

/-- The outcome of a stamp that has its form: the instant that its parts write, unless some part is
outside the calendar or the clock, or no instant has the local time. -/
def StampParts.reading (s : StampParts) (form : StampForm) (zone : Zone) : Except StampFault Int :=
  match s.localTime? with
  | none => .error (.invalid (s.text form.mark) form .outOfRange)
  | some t =>
    match t.epochMicros? zone with
    | some micros => .ok micros
    | none => .error (.nonexistent (s.text form.mark))

namespace StampReader

variable {α : Type} {rest : Text} {low high : Nat} {s : StampParts}

section Reading

theorem clock_run (h : s.Made Char.isDigit) (rest : Text) :
    clock (s.clock ++ rest) =
      if s.OnClock then
        .ok ((digitsValue s.hour, digitsValue s.minute, digitsValue s.second), rest)
      else .error .outOfRange := by
  have hhour := field_run h.hour 0 23
  have hminute := field_run h.minute 0 59
  have hsecond := field_run h.second 0 60
  simp only [Nat.zero_le, true_and] at hhour hminute hsecond
  simp only [StampParts.clock, List.append_assoc, List.cons_append, clock]
  by_cases h1 : digitsValue s.hour ≤ 23
  · rw [bind_of_ok ((hhour _).trans (if_pos h1)), bind_of_ok (literal_colon _)]
    by_cases h2 : digitsValue s.minute ≤ 59
    · rw [bind_of_ok ((hminute _).trans (if_pos h2)), bind_of_ok (literal_colon _)]
      by_cases h3 : digitsValue s.second ≤ 60
      · rw [bind_of_ok ((hsecond _).trans (if_pos h3)), if_pos (show s.OnClock from ⟨h1, h2, h3⟩)]
        rfl
      · rw [bind_of_error ((hsecond _).trans (if_neg h3)), if_neg fun hall : s.OnClock => h3 hall.2.2]
    · rw [bind_of_error ((hminute _).trans (if_neg h2)), if_neg fun hall : s.OnClock => h2 hall.2.1]
  · rw [bind_of_error ((hhour _).trans (if_neg h1)), if_neg fun hall : s.OnClock => h1 hall.1]

theorem dateOf_eq {y : Int} (hy : 0 ≤ y ∧ y ≤ 9999) (month day : Nat) (rest : Text) :
    dateOf y month day rest =
      match Date.ofFields? y month day with
      | some d => .ok (d, rest)
      | none => .error .outOfRange := by
  have hcalendar : Calendar.firstYear ≤ y ∧ y ≤ Calendar.lastYear := by
    unfold Calendar.firstYear Calendar.lastYear
    omega
  rw [dateOf, if_pos hcalendar]
  cases Date.ofFields? y month day <;> rfl

/-- A stamp in ASCII digits is read as its parts say. -/
theorem numeric_text (h : s.Made Char.isDigit) :
    numeric (s.text '.') =
      match s.localTime? with
      | some t => .ok (t, [])
      | none => .error .outOfRange := by
  have hmonth := field_run h.month 1 12
  have hday := field_run h.day 1 31
  have hclock := clock_run h
  have hspace (rest : Text) : blanks (' ' :: (s.clock ++ rest)) = .ok ((), s.clock ++ rest) := by
    apply blanks_space
    rw [StampParts.clock, List.append_assoc]
    exact blanks_run h.hour.decimal _
  have hfinish : finish [] = .ok ((), []) := rfl
  simp only [StampParts.text, StampParts.date, List.append_assoc, List.cons_append, numeric]
  rw [bind_of_ok (year_run h.year _), bind_of_ok (literal_dash _), StampParts.localTime?]
  by_cases h1 : 1 ≤ digitsValue s.month ∧ digitsValue s.month ≤ 12
  · rw [bind_of_ok ((hmonth _).trans (if_pos h1)), bind_of_ok (literal_dash _)]
    by_cases h2 : 1 ≤ digitsValue s.day ∧ digitsValue s.day ≤ 31
    · rw [bind_of_ok ((hday _).trans (if_pos h2)), bind_of_ok (hspace _)]
      by_cases h3 : s.OnClock
      · rw [bind_of_ok ((hclock _).trans (if_pos h3)), if_pos h3]
        dsimp only
        rw [bind_of_ok (fraction_run h.fraction_ne_nil h.fraction), bind_of_ok hfinish]
        have hyear : 0 ≤ (digitsValue s.year : Int) ∧ (digitsValue s.year : Int) ≤ 9999 := by
          have := h.year.digitsValue_lt
          omega
        have hdate := dateOf_eq hyear (digitsValue s.month) (digitsValue s.day) []
        cases hfields : Date.ofFields? (digitsValue s.year) (digitsValue s.month)
          (digitsValue s.day) with
        | some d =>
          rw [hfields] at hdate
          rw [bind_of_ok hdate]
          rfl
        | none =>
          rw [hfields] at hdate
          rw [bind_of_error hdate]
          rfl
      · rw [bind_of_error ((hclock _).trans (if_neg h3)), if_neg h3]
    · have hnone : Date.ofFields? (digitsValue s.year) (digitsValue s.month) (digitsValue s.day) =
          none := by
        refine dif_neg fun hfields => h2 ⟨hfields.2.2.1, hfields.2.2.2.trans ?_⟩
        exact Calendar.monthLength_le _ _
      rw [bind_of_error ((hday _).trans (if_neg h2)), hnone, Option.map_none, ite_self]
  · have hnone : Date.ofFields? (digitsValue s.year) (digitsValue s.month) (digitsValue s.day) =
        none := dif_neg fun hfields => h1 ⟨hfields.1, hfields.2.1⟩
    rw [bind_of_error ((hmonth _).trans (if_neg h1)), hnone, Option.map_none, ite_self]

end Reading

section Inversion

/-- The digits of the seconds may be left over in part: no mark behind them is read. -/
theorem of_clock {r : (Nat × Nat × Nat) × Text} (hs : s.Made isDecimalDigit)
    (h : clock (s.clock ++ rest) = .ok r) :
    IsRun Char.isDigit 2 s.hour ∧ IsRun Char.isDigit 2 s.minute ∧
      r.2 = s.second.dropWhile Char.isDigit ++ rest := by
  have hcolon : isDecimalDigit ':' = false := by decide
  simp only [StampParts.clock, List.append_assoc, List.cons_append, clock] at h
  obtain ⟨hhour, _, h⟩ := of_field_mark rfl hcolon hs.hour h
  obtain ⟨hminute, _, h⟩ := of_field_mark rfl hcolon hs.minute h
  obtain ⟨second, left, hsecond, h⟩ := exists_of_bind h
  cases h
  exact ⟨hhour, hminute, left_of_field hs.second hsecond⟩

/-- A digit of the day that is left over would stand where the hour is read. -/
theorem of_day_clock {f : Nat → (Nat × Nat × Nat) → StampReader α} {r : α × Text}
    (hs : s.Made isDecimalDigit)
    (h : (field low high >>= fun n => blanks >>= fun _ => clock >>= f n)
      (s.day ++ ' ' :: (s.clock ++ rest)) = .ok r) :
    IsRun Char.isDigit 2 s.day ∧ IsRun Char.isDigit 2 s.hour ∧ IsRun Char.isDigit 2 s.minute ∧
      ∃ n time, f n time (s.second.dropWhile Char.isDigit ++ rest) = .ok r := by
  obtain ⟨n, left, hday, htime⟩ := exists_of_bind h
  obtain ⟨_, left', hblanks, htime⟩ := exists_of_bind htime
  obtain ⟨time, left'', hclock, hthen⟩ := exists_of_bind htime
  rw [left_of_field hs.day hday] at hblanks
  obtain hnil | ⟨c, more, hmore, hc, hdigit⟩ := dropWhile_cases hs.day.forall_mem
  · have hskip : blanks (' ' :: (s.clock ++ rest)) = .ok ((), s.clock ++ rest) := by
      apply blanks_space
      rw [StampParts.clock, List.append_assoc]
      exact blanks_run hs.hour _
    rw [hnil, List.nil_append, hskip] at hblanks
    cases hblanks
    obtain ⟨hhour, hminute, hleft⟩ := of_clock hs hclock
    rw [← hleft]
    exact ⟨⟨hs.day.length_eq, forall_of_dropWhile_eq_nil hnil⟩, hhour, hminute, n, time, hthen⟩
  · rw [hmore, List.cons_append, ← List.singleton_append,
      blanks_of_head? (by simp [isBlank_of_isDecimalDigit hc])] at hblanks
    cases hblanks
    rw [clock, List.singleton_append, bind_of_error (field_of_not_isDigit hc hdigit _)] at hclock
    cases hclock

/-- A digit of the second that is left over would hide the point from the fraction. -/
theorem of_fraction_finish {f : Nat → StampReader α} {r : α × Text} (hs : s.Made isDecimalDigit)
    (h : (fraction >>= fun n => finish >>= fun _ => f n)
      (s.second.dropWhile Char.isDigit ++ '.' :: s.fraction) = .ok r) :
    IsRun Char.isDigit 2 s.second ∧ ∀ c ∈ s.fraction, c.isDigit = true := by
  obtain ⟨n, left, hfraction, h⟩ := exists_of_bind h
  obtain ⟨_, left', hfinish, h⟩ := exists_of_bind h
  obtain rfl := eq_nil_of_finish hfinish
  obtain hnone | ⟨run, hrun, -, hdigits⟩ := cases_of_fraction hfraction
  · exact absurd hnone (by simp)
  obtain hnil | ⟨c, more, hmore, hc, -⟩ := dropWhile_cases hs.second.forall_mem
  · rw [hnil] at hrun
    obtain rfl := (List.cons.inj hrun).2
    exact ⟨⟨hs.second.length_eq, forall_of_dropWhile_eq_nil hnil⟩, hdigits⟩
  · rw [hmore] at hrun
    rw [(List.cons.inj hrun).1] at hc
    exact absurd hc (by decide)

/-- Only a stamp in ASCII digits is read, part by part from the left. -/
theorem made_of_numeric {r : LocalTime × Text} (hs : s.Made isDecimalDigit)
    (h : numeric (s.text '.') = .ok r) : s.Made Char.isDigit := by
  simp only [StampParts.text, StampParts.date, List.append_assoc, List.cons_append, numeric] at h
  obtain ⟨hyear, _, h⟩ := of_year_dash hs.year h
  obtain ⟨hmonth, _, h⟩ := of_field_mark rfl (by decide) hs.month h
  obtain ⟨hday, hhour, hminute, _, _, h⟩ := of_day_clock hs h
  obtain ⟨hsecond, hfraction⟩ := of_fraction_finish hs h
  exact ⟨hyear, hmonth, hday, hhour, hminute, hsecond, hfraction, hs.fraction_ne_nil⟩

end Inversion

end StampReader

namespace Stamp

theorem firstCommaToPoint_of_not_mem {before : Text} (h : ',' ∉ before) (t : Text) :
    firstCommaToPoint (before ++ ',' :: t) = before ++ '.' :: t := by
  have hbefore : ∀ c ∈ before, (c != ',') = true := by
    intro c hc
    rw [bne_iff_ne]
    rintro rfl
    exact h hc
  rw [firstCommaToPoint, List.dropWhile_append_of_pos hbefore, List.takeWhile_append_of_pos hbefore]
  simp

/-- A point with no colon behind it is a fraction's. -/
theorem hasFraction_of_point (before : Text) {behind : Text} (h : ':' ∉ behind) :
    hasFraction (before ++ '.' :: behind) = true := by
  have hall : ∀ c ∈ behind.reverse ++ ['.'], (c != ':') = true := by
    intro c hc
    rw [bne_iff_ne]
    rintro rfl
    simp [h] at hc
  have hreverse : (before ++ '.' :: behind).reverse =
      (behind.reverse ++ ['.']) ++ before.reverse := by simp
  rw [hasFraction, hreverse, List.takeWhile_append_of_pos hall]
  simp

variable {s : StampParts} {form : StampForm}

/-- No point before the last colon counts. -/
theorem hasFraction_eq_false (before : Text) {behind : Text} (h : '.' ∉ behind) :
    hasFraction (before ++ ':' :: behind) = false := by
  have hreverse : (before ++ ':' :: behind).reverse = behind.reverse ++ ':' :: before.reverse := by
    simp
  have hsub : (behind.reverse ++ ':' :: before.reverse).takeWhile (· != ':') ⊆ behind.reverse := by
    rw [List.takeWhile_append]
    split
    · simp
    · exact List.takeWhile_subset _
  rw [hasFraction, hreverse]
  by_contra hpoint
  exact h (List.mem_reverse.1 (hsub (by simpa using hpoint)))

theorem hasFraction_text (hs : s.Made isDecimalDigit) : hasFraction (s.text '.') = true := by
  have hfraction : ':' ∉ s.fraction := by
    intro hmem
    exact absurd (hs.fraction _ hmem) (by decide)
  have := hasFraction_of_point (s.date ++ ' ' :: s.clock) hfraction
  rwa [List.append_assoc, List.cons_append] at this

theorem firstCommaToPoint_text (hs : s.Made isDecimalDigit) :
    firstCommaToPoint (s.text ',') = s.text '.' := by
  have hdigit : isDecimalDigit ',' = false := by decide
  have hcomma : ',' ∉ s.date ++ ' ' :: s.clock := by
    simp [StampParts.date, StampParts.clock, hs.year.not_mem hdigit, hs.month.not_mem hdigit,
      hs.day.not_mem hdigit, hs.hour.not_mem hdigit, hs.minute.not_mem hdigit,
      hs.second.not_mem hdigit]
  have := firstCommaToPoint_of_not_mem hcomma s.fraction
  rw [List.append_assoc, List.append_assoc] at this
  exact this

/-- The text that a numeric stamp is read from: in the form with a comma the first one is turned
into a point. -/
def pointed (form : StampForm) (text : Text) : Text :=
  if form = .comma then firstCommaToPoint text else text

/-- A numeric stamp is looked over for its fraction, and then read from its numbers. -/
theorem read_eq (hform : form ≠ .exported) (zone : Zone) (text : Text) :
    read form zone text =
      if hasFraction (pointed form text) then
        match StampReader.numeric (pointed form text) with
        | .error cause => .error (.invalid text form cause)
        | .ok r =>
          match r.1.epochMicros? zone with
          | some micros => .ok micros
          | none => .error (.nonexistent text)
      else .error (.missingFraction text) := by
  have hlocal : readLocal form (pointed form text) =
      (StampReader.numeric (pointed form text)).map Prod.fst := by
    cases form with
    | point => rfl
    | comma => rfl
    | exported => exact absurd rfl hform
  have hpointed : (if form = .comma then firstCommaToPoint text else text) =
      pointed form text := rfl
  simp only [read, hpointed, hlocal]
  cases hasFraction (pointed form text) with
  | false => simp [hform]
  | true =>
    rw [if_neg (by simp), if_pos rfl]
    rcases StampReader.numeric (pointed form text) with cause | ⟨t, left⟩ <;> rfl

/-- A stamp of decimal digits with the mark of its form is read from its numbers. -/
theorem read_text_eq (hs : s.Made isDecimalDigit) (hform : form ≠ .exported) (zone : Zone) :
    read form zone (s.text form.mark) =
      match StampReader.numeric (s.text '.') with
      | .error cause => .error (.invalid (s.text form.mark) form cause)
      | .ok r =>
        match r.1.epochMicros? zone with
        | some micros => .ok micros
        | none => .error (.nonexistent (s.text form.mark)) := by
  have hpoint : pointed form (s.text form.mark) = s.text '.' := by
    cases form with
    | point => rfl
    | comma => exact firstCommaToPoint_text hs
    | exported => exact absurd rfl hform
  rw [read_eq hform, hpoint, hasFraction_text hs, if_pos rfl]

/-- A stamp in ASCII digits is read as its parts say, and one with any other decimal digit in it does
not have its form. -/
theorem read_of_text (hs : s.Made isDecimalDigit) (form : StampForm) (hform : form ≠ .exported)
    (zone : Zone) {text : Text} (htext : text = s.text form.mark) :
    (s.Made Char.isDigit → read form zone text = s.reading form zone) ∧
      (¬s.Made Char.isDigit → ∃ cause, read form zone text = .error (.invalid text form cause)) := by
  rw [htext, read_text_eq hs hform]
  constructor
  · intro h
    rw [StampReader.numeric_text h, StampParts.reading]
    cases s.localTime? <;> rfl
  · intro h
    cases hnumeric : StampReader.numeric (s.text '.') with
    | error cause => exact ⟨cause, rfl⟩
    | ok r => exact absurd (StampReader.made_of_numeric hs hnumeric) h

end Stamp
end ReplayLog
