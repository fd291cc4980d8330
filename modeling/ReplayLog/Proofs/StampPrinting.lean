import ReplayLog.Proofs.StampParts

/-! # Printed time stamps

A local time printed as a date, a time and milliseconds behind a comma or a point is read as its
instant in every zone of a fixed offset. The years are those of four digits. -/
namespace ReplayLog

def Date.print (d : Date) : Text :=
  padded 4 d.year.toNat ++ '-' :: (padded 2 d.month ++ '-' :: padded 2 d.day)

namespace LocalTime

def printClock (t : LocalTime) : Text :=
  padded 2 t.hour ++ ':' :: (padded 2 t.minute ++ ':' :: padded 2 t.second)

/-- A local time that a stamp can write: a year of four digits, the numbers of a clock and whole
milliseconds. -/
structure Printable (t : LocalTime) (millis : Nat) : Prop where
  year : 0 ≤ t.date.year ∧ t.date.year ≤ 9999
  hour_le : t.hour ≤ 23
  minute_le : t.minute ≤ 59
  second_le : t.second ≤ 60
  millis_lt : millis < 1000
  micros_eq : t.micros = millis * 1000

/-- The digits of the stamp that a local time is printed as, with such a fraction. -/
def parts (t : LocalTime) (fraction : Text) : StampParts :=
  ⟨padded 4 t.date.year.toNat, padded 2 t.date.month, padded 2 t.date.day, padded 2 t.hour,
    padded 2 t.minute, padded 2 t.second, fraction⟩

variable {t : LocalTime} {millis : Nat} {fraction : Text}

theorem made_parts (t : LocalTime) (hne : fraction ≠ []) (h : ∀ c ∈ fraction, c.isDigit = true) :
    (t.parts fraction).Made Char.isDigit :=
  ⟨.padded, .padded, .padded, .padded, .padded, .padded, h, hne⟩

theorem ofFields?_date (d : Date) : Date.ofFields? d.year d.month d.day = some d :=
  dif_pos ⟨d.month_pos, d.month_le, d.day_pos, d.day_le⟩

theorem clock_parts (h : t.Printable millis) (fraction : Text) :
    digitsValue (t.parts fraction).hour = t.hour ∧ digitsValue (t.parts fraction).minute = t.minute ∧
      digitsValue (t.parts fraction).second = t.second ∧ (t.parts fraction).OnClock := by
  obtain ⟨-, hhour_le, hminute_le, hsecond_le, -, -⟩ := h
  have hhour : digitsValue (t.parts fraction).hour = t.hour := digitsValue_padded (by omega)
  have hminute : digitsValue (t.parts fraction).minute = t.minute := digitsValue_padded (by omega)
  have hsecond : digitsValue (t.parts fraction).second = t.second := digitsValue_padded (by omega)
  refine ⟨hhour, hminute, hsecond, ?_⟩
  rw [StampParts.OnClock, hhour, hminute, hsecond]
  exact ⟨hhour_le, hminute_le, hsecond_le⟩

/-- The parts write the local time that was printed. -/
theorem localTime?_parts (h : t.Printable millis) (fraction : Text) :
    (t.parts fraction).localTime? = some { t with micros := (t.parts fraction).micros } := by
  obtain ⟨hhour, hminute, hsecond, hclock⟩ := clock_parts h fraction
  obtain ⟨hlow, hhigh⟩ := h.year
  have hmonth_le := t.date.month_le
  have hday_le := t.date.day_le.trans (Calendar.monthLength_le _ _)
  have hyear : digitsValue (t.parts fraction).year = t.date.year.toNat :=
    digitsValue_padded (by omega)
  have hmonth : digitsValue (t.parts fraction).month = t.date.month := digitsValue_padded (by omega)
  have hday : digitsValue (t.parts fraction).day = t.date.day := digitsValue_padded (by omega)
  rw [StampParts.localTime?, if_pos hclock, hyear, hmonth, hday, hhour, hminute, hsecond,
    Int.toNat_of_nonneg hlow, ofFields?_date]
  rfl

theorem micros_parts (t : LocalTime) (h : millis < 1000) :
    (t.parts (padded 3 millis)).micros = millis * 1000 := by
  have hvalue : digitsValue (padded 3 millis) = millis := digitsValue_padded h
  have hshort : (padded 3 millis).take 9 = padded 3 millis := List.take_of_length_le (by simp)
  rw [StampParts.micros]
  change digitsValue (((padded 3 millis).take 9).rightpad 9 '0') / 1000 = _
  rw [hshort, digitsValue_rightpad, hvalue, length_padded]
  omega

theorem inCalendar_iff {instant : Int} : Zone.inCalendar instant = true ↔
    -8334601228800 ≤ instant ∧ instant < 8210266876800 := by
  have hfirst : Calendar.daysBeforeYear Calendar.firstYear = -95746130 := by decide
  have hlast : Calendar.daysBeforeYear (Calendar.lastYear + 1) = 95745399 := by decide
  rw [Zone.inCalendar, hfirst, hlast, Bool.and_eq_true, decide_eq_true_eq, decide_eq_true_eq,
    Calendar.epochDay]
  omega

/-- Every printable time has its instant within the calendar. -/
theorem inCalendar_of_printable (h : t.Printable millis) {east : Int}
    (heast : -86400 < east ∧ east < 86400) :
    Zone.inCalendar (t.seconds - t.leap - east) = true := by
  obtain ⟨⟨hlow, hhigh⟩, hhour, hminute, hsecond, -, -⟩ := h
  have hmonth := Calendar.daysBeforeMonth_le t.date.year t.date.month
  have hmonth_le := t.date.month_le
  have hday : t.date.day ≤ 31 := t.date.day_le.trans (Calendar.monthLength_le _ _)
  have hday_pos := t.date.day_pos
  rw [inCalendar_iff, seconds, leap, Date.epochDays, Calendar.daysBeforeYear, Calendar.epochDay]
  omega

/-- The microseconds of a printable time fit into 64 bits. -/
theorem holds_of_printable (h : t.Printable millis) {east : Int}
    (heast : -86400 < east ∧ east < 86400) :
    Span.int64.holds ((t.seconds - east) * 1000000) = true := by
  have hcalendar := inCalendar_iff.1 (inCalendar_of_printable h heast)
  have hleap : t.leap ≤ 1 := Nat.sub_le_of_le_add h.second_le
  rw [Span.holds_iff, Span.int64]
  dsimp only
  omega

/-- A printable time with any microseconds has its instant in a zone of a fixed offset. -/
theorem epochMicros?_fixed (h : t.Printable millis) {east : Int}
    (heast : -86400 < east ∧ east < 86400) (micros : Nat) :
    { t with micros }.epochMicros? (.fixed east) = some ((t.seconds - east) * 1000000 + micros) := by
  rw [epochMicros?, Zone.earliest?, Zone.offsets]
  change Option.map _ (if Zone.inCalendar (t.seconds - t.leap - east) = true then _ else none) = _
  rw [if_pos (inCalendar_of_printable h heast), Option.map_some]
  change some ((t.seconds - t.leap - east + t.leap) * 1000000 + (micros : Int)) = _
  congr 2
  omega

/-- The parts of a printable time are read as its instant. -/
theorem reading_parts (h : t.Printable millis) {east : Int} (heast : -86400 < east ∧ east < 86400)
    (fraction : Text) (form : StampForm) :
    (t.parts fraction).reading form (.fixed east) =
      .ok ((t.seconds - east) * 1000000 + (t.parts fraction).micros) := by
  rw [StampParts.reading, localTime?_parts h]
  dsimp only
  rw [epochMicros?_fixed h heast]

end LocalTime

/-- A printed clock is read back. -/
theorem StampReader.clock_printClock {t : LocalTime} {millis : Nat} (h : t.Printable millis)
    (rest : Text) : clock (t.printClock ++ rest) = .ok ((t.hour, t.minute, t.second), rest) := by
  obtain ⟨hhour, hminute, hsecond, hclock⟩ := LocalTime.clock_parts h ['0']
  have hmade : (t.parts ['0']).Made Char.isDigit := t.made_parts (by simp) (List.all_eq_true.1 rfl)
  have hread := clock_run hmade rest
  rw [if_pos hclock, hhour, hminute, hsecond] at hread
  exact hread

namespace Stamp

variable {t : LocalTime} {millis : Nat}

theorem not_mem_padded {x : Char} (hx : x.isDigit = false) (width n : Nat) :
    x ∉ padded width n := fun h => by
  rw [isDigit_of_mem_padded h] at hx
  cases hx

/-- The local time as a stamp with a comma writes it. -/
def print (t : LocalTime) (millis : Nat) : Text :=
  t.date.print ++ ' ' :: (t.printClock ++ ',' :: padded 3 millis)

def printPoint (t : LocalTime) (millis : Nat) : Text :=
  t.date.print ++ ' ' :: (t.printClock ++ '.' :: padded 3 millis)

private theorem read_of_parts {form : StampForm} (hform : form ≠ .exported)
    (h : t.Printable millis) {east : Int} (heast : -86400 < east ∧ east < 86400) {text : Text}
    (htext : text = (t.parts (padded 3 millis)).text form.mark) :
    read form (.fixed east) text = .ok ((t.seconds - east) * 1000000 + millis * 1000) := by
  have hmade : (t.parts (padded 3 millis)).Made Char.isDigit :=
    t.made_parts (List.ne_nil_of_length_pos (by simp)) fun c hc => isDigit_of_mem_padded hc
  rw [(read_of_text hmade.decimal form hform _ htext).1 hmade, LocalTime.reading_parts h heast,
    LocalTime.micros_parts t h.millis_lt]
  rfl

/-- A printed local time is read as its instant in a zone of a fixed offset. -/
theorem read_print (h : t.Printable millis) {east : Int} (heast : -86400 < east ∧ east < 86400) :
    read .comma (.fixed east) (print t millis) =
      .ok ((t.seconds - east) * 1000000 + millis * 1000) :=
  read_of_parts (by decide) h heast rfl

theorem read_printPoint (h : t.Printable millis) {east : Int}
    (heast : -86400 < east ∧ east < 86400) :
    read .point (.fixed east) (printPoint t millis) =
      .ok ((t.seconds - east) * 1000000 + millis * 1000) :=
  read_of_parts (by decide) h heast rfl

end Stamp
end ReplayLog
