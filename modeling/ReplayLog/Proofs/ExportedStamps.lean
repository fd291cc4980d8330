import ReplayLog.Proofs.StampPrinting

/-! # Printed stamps of exports

Exports write a local time with the names of its weekday and its month, in any case of letters. In a
zone of a fixed offset it is read as its instant if the weekday is the one of the date, and it is not
read if the weekday is another. -/
namespace ReplayLog

namespace Date

def weekdayName (d : Date) : Text :=
  (Weekday.names.getD (Weekday.ofEpochDays d.epochDays).val "").toList

def monthName (d : Date) : Text := (Calendar.monthNames.getD (d.month - 1) "").toList

end Date

namespace Stamp

/-- The local time as an export writes it, to the second. -/
def printExported (t : LocalTime) : Text :=
  t.date.weekdayName ++ ' ' :: (t.date.monthName ++ ' ' :: (padded 2 t.date.day ++ ' ' ::
    (t.printClock ++ ' ' :: ("CST".toList ++ ' ' :: padded 4 t.date.year.toNat))))

/-- The same with any text for its weekday and its month. -/
def exportedText (t : LocalTime) (weekday month : Text) : Text :=
  weekday ++ ' ' :: (month ++ ' ' :: (padded 2 t.date.day ++ ' ' ::
    (t.printClock ++ ' ' :: ("CST".toList ++ ' ' :: padded 4 t.date.year.toNat))))

end Stamp

theorem Text.length_of_sameIgnoringCase {s t : Text} (h : s.sameIgnoringCase t = true) :
    s.length = t.length := by
  have := congrArg List.length (eq_of_beq h)
  rwa [List.length_map, List.length_map] at this

/-- No blank character is a letter. -/
theorem toLower_of_isBlank {c : Char} (h : isBlank c = true) : c.toLower = c := by
  unfold Char.toLower
  split
  · next hupper =>
    have hrange : 65 ≤ c.toNat ∧ c.toNat ≤ 90 := hupper
    simp only [isBlank, Bool.or_eq_true, Bool.and_eq_true, decide_eq_true_eq, beq_iff_eq] at h
    omega
  · rfl

namespace StampReader

theorem byteSize_of_letters {letters : Text} (hlength : letters.length = 3) (rest : Text) :
    ¬Text.byteSize (letters ++ rest) < 3 := by
  obtain ⟨a, b, c, rfl⟩ := List.length_eq_three.1 hlength
  have ha := Char.utf8Size_pos a
  have hb := Char.utf8Size_pos b
  have hc := Char.utf8Size_pos c
  simp only [List.cons_append, List.nil_append, Text.byteSize_cons]
  omega

/-- The place of the first name that agrees with the letters in any case. -/
def place? (names : List String) (letters : Text) : Option Nat :=
  names.findIdx? fun n => n.toList.map Char.toLower == letters.map Char.toLower

/-- Three letters are looked up among the names. -/
theorem name_of_letters {letters : Text} (hlength : letters.length = 3) (names : List String)
    (rest : Text) : name names (letters ++ rest) =
      match place? names letters with
      | some i => .ok (i, rest)
      | none => .error .unexpected := by
  have htake : (letters ++ rest).take 3 = letters := by rw [← hlength, List.take_left]
  have hdrop : (letters ++ rest).drop 3 = rest := by rw [← hlength, List.drop_left]
  rw [name, if_neg (byteSize_of_letters hlength rest), htake, hdrop]
  rfl

/-- The place of a name does not depend on the case of its letters. -/
theorem place?_of_sameIgnoringCase {letters name : Text}
    (h : letters.sameIgnoringCase name = true) (names : List String) :
    place? names letters = place? names name := by
  rw [place?, place?, eq_of_beq h]

theorem place?_weekdayName (d : Date) : d.weekdayName.length = 3 ∧
    place? Weekday.names d.weekdayName = some (Weekday.ofEpochDays d.epochDays).val := by
  have hall : ∀ w : Weekday, (Weekday.names.getD w.val "").toList.length = 3 ∧
      place? Weekday.names (Weekday.names.getD w.val "").toList = some w.val := by
    decide
  exact hall _

/-- The name of a month is taken in any case of letters. -/
theorem name_month {d : Date} {month : Text} (h : month.sameIgnoringCase d.monthName = true)
    (rest : Text) : blanks (month ++ rest) = .ok ((), month ++ rest) ∧
      name Calendar.monthNames (month ++ rest) = .ok (d.month - 1, rest) := by
  have hall : ∀ m : Fin 12, (Calendar.monthNames.getD m.val "").toList.length = 3 ∧
      place? Calendar.monthNames (Calendar.monthNames.getD m.val "").toList = some m.val ∧
      ((Calendar.monthNames.getD m.val "").toList.map Char.toLower).head?.map isBlank =
        some false := by
    decide
  have hmonth : d.month - 1 < 12 := by
    have := d.month_pos
    have := d.month_le
    omega
  obtain ⟨hlength, hfind, hblank⟩ := hall ⟨d.month - 1, hmonth⟩
  change (d.monthName.map Char.toLower).head?.map isBlank = some false at hblank
  rw [← eq_of_beq h] at hblank
  constructor
  · apply blanks_of_head?
    cases month with
    | nil => cases hblank
    | cons c month =>
      simp only [List.map_cons, List.head?_cons, Option.map_some, Option.some.injEq] at hblank ⊢
      by_contra hc
      rw [toLower_of_isBlank (by simpa using hc)] at hblank
      exact hc hblank
  · have hplace : place? Calendar.monthNames d.monthName = some (d.month - 1) := hfind
    rw [name_of_letters ((Text.length_of_sameIgnoringCase h).trans hlength),
      place?_of_sameIgnoringCase h, hplace]

variable {t : LocalTime} {weekday month : Text}

/-- Behind the name of some weekday the rest is read, and then the weekday is compared. -/
theorem named_of_weekday (h : t.Printable 0) (hlength : weekday.length = 3) {w : Nat}
    (hw : place? Weekday.names weekday = some w)
    (hmonth : month.sameIgnoringCase t.date.monthName = true) :
    named (Stamp.exportedText t weekday month) =
      if (Weekday.ofEpochDays t.date.epochDays).val = w then .ok (t, [])
      else .error .impossible := by
  obtain ⟨hlow, hhigh⟩ := h.year
  have hyear : ((t.date.year.toNat : Nat) : Int) = t.date.year := Int.toNat_of_nonneg hlow
  have hday_le : t.date.day ≤ 31 := t.date.day_le.trans (Calendar.monthLength_le _ _)
  have hplace : t.date.month - 1 + 1 = t.date.month := Nat.sub_add_cancel t.date.month_pos
  have hpadded {width : Nat} (n : Nat) (rest : Text) :
      blanks (padded (width + 1) n ++ rest) = .ok ((), padded (width + 1) n ++ rest) :=
    blanks_run IsRun.padded.decimal rest
  have hclock (rest : Text) : blanks (t.printClock ++ rest) = .ok ((), t.printClock ++ rest) := by
    rw [LocalTime.printClock, List.append_assoc]
    exact hpadded _ _
  have hzone (rest : Text) : literal "CST" ("CST".toList ++ rest) = .ok ((), rest) :=
    literal_append (by decide) rest
  have hspace (rest : Text) : blanks ("CST".toList ++ rest) = .ok ((), "CST".toList ++ rest) :=
    blanks_of_head? rfl rest
  have hday (rest : Text) : field 1 31 (padded 2 t.date.day ++ rest) = .ok (t.date.day, rest) := by
    rw [field_run .padded, digitsValue_padded (by omega), if_pos ⟨t.date.day_pos, hday_le⟩]
  have hyear_run : IsRun Char.isDigit 4 (padded 4 t.date.year.toNat) := .padded
  have hbehind := blanks_run hyear_run.decimal []
  have hlast := year_run hyear_run []
  rw [digitsValue_padded (by omega), hyear, List.append_nil] at hlast
  rw [List.append_nil] at hbehind
  have hfinish : finish [] = .ok ((), []) := rfl
  have hdate := dateOf_eq ⟨hlow, hhigh⟩ t.date.month t.date.day []
  rw [LocalTime.ofFields?_date] at hdate
  have hname (rest : Text) : name Weekday.names (weekday ++ rest) = .ok (w, rest) := by
    rw [name_of_letters hlength, hw]
  rw [Stamp.exportedText, named, bind_of_ok (hname _),
    bind_of_ok (blanks_space (name_month hmonth _).1), bind_of_ok (name_month hmonth _).2,
    bind_of_ok (blanks_space (hpadded _ _)), bind_of_ok (hday _),
    bind_of_ok (blanks_space (hclock _)), bind_of_ok (clock_printClock h _)]
  dsimp only
  rw [bind_of_ok (blanks_space (hspace _)), bind_of_ok (hzone _), bind_of_ok (blanks_space hbehind),
    bind_of_ok hlast, bind_of_ok hfinish, hplace, bind_of_ok hdate]
  have hmicros : t.micros = 0 := by rw [h.micros_eq]
  split
  · rw [← hmicros]
    rfl
  · rfl

/-- A text of three characters that is no name of a weekday is not taken. -/
theorem named_of_no_weekday (hlength : weekday.length = 3)
    (hw : place? Weekday.names weekday = none) :
    named (Stamp.exportedText t weekday month) = .error .unexpected := by
  have hname (rest : Text) : name Weekday.names (weekday ++ rest) = .error .unexpected := by
    rw [name_of_letters hlength, hw]
  rw [Stamp.exportedText, named, bind_of_error (hname _)]

/-- Only the weekday of the date is read, in any case of letters. -/
theorem named_exportedText (h : t.Printable 0) (hlength : weekday.length = 3)
    (hmonth : month.sameIgnoringCase t.date.monthName = true) :
    (weekday.sameIgnoringCase t.date.weekdayName = true →
      named (Stamp.exportedText t weekday month) = .ok (t, [])) ∧
    (weekday.sameIgnoringCase t.date.weekdayName = false →
      ∃ cause, named (Stamp.exportedText t weekday month) = .error cause) := by
  obtain ⟨-, hfind⟩ := place?_weekdayName t.date
  constructor
  · intro hsame
    rw [named_of_weekday h hlength ((place?_of_sameIgnoringCase hsame _).trans hfind) hmonth,
      if_pos rfl]
  · intro hother
    cases hw : place? Weekday.names weekday with
    | none => exact ⟨_, named_of_no_weekday hlength hw⟩
    | some w =>
      rw [named_of_weekday h hlength hw hmonth]
      refine ⟨.impossible, if_neg fun heq => ?_⟩
      obtain ⟨hlt, hname, -⟩ := List.findIdx?_eq_some_iff_getElem.1 hw
      obtain ⟨hlt', hname', -⟩ := List.findIdx?_eq_some_iff_getElem.1 hfind
      simp only [heq] at hname'
      have hsame : weekday.map Char.toLower = t.date.weekdayName.map Char.toLower :=
        (eq_of_beq hname).symm.trans (eq_of_beq hname')
      rw [Text.sameIgnoringCase, hsame, beq_self_eq_true] at hother
      cases hother

end StampReader

namespace Stamp

variable {t : LocalTime} {weekday month : Text}

/-- The instant of a stamp with the weekday of its date, and a fault for any other weekday. -/
theorem read_exportedText (h : t.Printable 0) (hlength : weekday.length = 3)
    (hmonth : month.sameIgnoringCase t.date.monthName = true) {east : Int}
    (heast : -86400 < east ∧ east < 86400) :
    (weekday.sameIgnoringCase t.date.weekdayName = true →
      read .exported (.fixed east) (exportedText t weekday month) =
        .ok ((t.seconds - east) * 1000000)) ∧
    (weekday.sameIgnoringCase t.date.weekdayName = false →
      ∃ cause, read .exported (.fixed east) (exportedText t weekday month) =
        .error (.invalid (exportedText t weekday month) .exported cause)) := by
  have hcomma : ¬StampForm.exported = .comma := by decide
  have hlocal : readLocal .exported (exportedText t weekday month) =
      (StampReader.named (exportedText t weekday month)).map Prod.fst := rfl
  obtain ⟨hread, hfault⟩ := StampReader.named_exportedText h hlength hmonth
  rw [read, if_neg hcomma, if_neg fun hneeded => hneeded.1 rfl, hlocal]
  constructor
  · intro hsame
    rw [hread hsame]
    dsimp only [Except.map]
    rw [LocalTime.epochMicros?_fixed h heast t.micros, h.micros_eq]
    simp
  · intro hother
    obtain ⟨cause, hcause⟩ := hfault hother
    exact ⟨cause, by rw [hcause]; rfl⟩

theorem read_printExported (h : t.Printable 0) {east : Int} (heast : -86400 < east ∧ east < 86400) :
    read .exported (.fixed east) (printExported t) = .ok ((t.seconds - east) * 1000000) := by
  have hsame (s : Text) : s.sameIgnoringCase s = true := by simp [Text.sameIgnoringCase]
  obtain ⟨hlength, -⟩ := StampReader.place?_weekdayName t.date
  exact (read_exportedText h hlength (hsame _) heast).1 (hsame _)

end Stamp
end ReplayLog
