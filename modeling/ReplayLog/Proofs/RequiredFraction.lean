import ReplayLog.Proofs.OffsetNotation
import ReplayLog.Proofs.StampParts

/-! # The fraction of a stamp

A numeric stamp is a date and a time of whole seconds with a fraction right behind them. Blanks may
stand before every number, a number may be a single digit, and a year may have a sign. Whether there
is a fraction is looked up before anything else is read, as a point behind the last colon, while the
reader itself goes on without one. The two agree on every text: nothing is read without a fraction,
and what lacks only the fraction is reported for just that. -/
namespace ReplayLog

open Integer (Digits Numeral)

/-- A number as a stamp may write it before other text: blanks or none, and then two digits, or one
that no other digit follows. -/
def WritesNumber (t : Text) (n : Nat) (rest : Text) : Prop :=
  ∃ blanks digits, t = blanks ++ digits ∧ (∀ c ∈ blanks, isBlank c = true) ∧ Digits digits n ∧
    (digits.length = 2 ∨ digits.length ≤ 2 ∧ ∀ c ∈ rest.head?, c.isDigit = false)

/-- A year without blanks: four digits at most, or any number of them behind a sign. -/
inductive YearNumeral : Text → Int → Prop
  | plain {t : Text} {y : Int} (h : Digits t y) (hlength : t.length ≤ 4) : YearNumeral t y
  | plus {t : Text} {y : Int} (h : Digits t y) : YearNumeral ('+' :: t) y
  | minus {t : Text} {y : Int} (h : Digits t y) : YearNumeral ('-' :: t) (-y)

def WritesYear (t : Text) (y : Int) : Prop :=
  ∃ blanks numeral, t = blanks ++ numeral ∧ (∀ c ∈ blanks, isBlank c = true) ∧
    YearNumeral numeral y ∧ Span.int32.holds y = true

/-- The parts of a date and a time of whole seconds, each with the blanks before it. -/
structure LooseStamp where
  year : Text
  month : Text
  day : Text
  hour : Text
  minute : Text
  second : Text

structure StampNumbers where
  year : Int
  month : Nat
  day : Nat
  hour : Nat
  minute : Nat
  second : Nat

namespace StampNumbers

def date? (n : StampNumbers) : Option Date :=
  if Calendar.firstYear ≤ n.year ∧ n.year ≤ Calendar.lastYear then
    Date.ofFields? n.year n.month n.day
  else none

/-- The local time with such digits as its fraction, if its date is in the calendar. Nine of the
digits count. -/
def localTime? (n : StampNumbers) (fraction : Text) : Option LocalTime :=
  n.date?.map fun d =>
    ⟨d, n.hour, n.minute, n.second, digitsValue ((fraction.take 9).rightpad 9 '0') / 1000⟩

end StampNumbers

namespace LooseStamp

def text (s : LooseStamp) : Text :=
  s.year ++ '-' :: (s.month ++ '-' :: (s.day ++ (s.hour ++ ':' :: (s.minute ++ ':' :: s.second))))

structure Writes (s : LooseStamp) (n : StampNumbers) : Prop where
  year : WritesYear s.year n.year
  month : WritesNumber s.month n.month ['-']
  month_bounds : 1 ≤ n.month ∧ n.month ≤ 12
  day : WritesNumber s.day n.day s.hour
  day_bounds : 1 ≤ n.day ∧ n.day ≤ 31
  hour : WritesNumber s.hour n.hour [':']
  hour_bounds : 0 ≤ n.hour ∧ n.hour ≤ 23
  minute : WritesNumber s.minute n.minute [':']
  minute_bounds : 0 ≤ n.minute ∧ n.minute ≤ 59
  second : WritesNumber s.second n.second []
  second_bounds : 0 ≤ n.second ∧ n.second ≤ 60

end LooseStamp

namespace WritesNumber

variable {t rest rest' : Text} {n : Nat}

/-- Of the text behind a number only the first character counts. -/
theorem before (h : WritesNumber t n rest) (hhead : rest'.head? = rest.head?) :
    WritesNumber t n rest' := by
  rw [WritesNumber, hhead]
  exact h

/-- No number goes on where no digit follows. -/
theorem of_stop (h : WritesNumber t n rest) (hstop : ∀ c ∈ rest'.head?, c.isDigit = false) :
    WritesNumber t n rest' := by
  obtain ⟨blanks, digits, rfl, hblanks, hdigits, hlength⟩ := h
  exact ⟨blanks, digits, rfl, hblanks, hdigits, .inr ⟨hlength.elim Nat.le_of_eq And.left, hstop⟩⟩

theorem behind_blanks (h : WritesNumber t n rest) {blanks : Text}
    (hblanks : ∀ c ∈ blanks, isBlank c = true) : WritesNumber (blanks ++ t) n rest := by
  obtain ⟨more, digits, rfl, hmore, hdigits⟩ := h
  refine ⟨blanks ++ more, digits, (List.append_assoc _ _ _).symm, ?_, hdigits⟩
  exact List.forall_mem_append.2 ⟨hblanks, hmore⟩

theorem ne_nil (h : WritesNumber t n rest) : t ≠ [] := by
  obtain ⟨blanks, digits, rfl, -, hdigits, -⟩ := h
  exact List.append_ne_nil_of_right_ne_nil blanks hdigits.1

theorem not_mem (h : WritesNumber t n rest) {x : Char} (hblank : isBlank x = false)
    (hdigit : x.isDigit = false) : x ∉ t := by
  obtain ⟨blanks, digits, rfl, hblanks, hdigits, -⟩ := h
  rw [List.mem_append, not_or]
  refine ⟨fun hmem => ?_, hdigits.not_mem hdigit⟩
  rw [hblanks x hmem] at hblank
  cases hblank

end WritesNumber

theorem YearNumeral.numeral {t : Text} {y : Int} (h : YearNumeral t y) : Numeral t y := by
  cases h with
  | plain h _ => exact .unsigned h
  | plus h => exact .plus h
  | minus h => exact .minus h

theorem WritesYear.not_mem {t : Text} {y : Int} (h : WritesYear t y) {x : Char}
    (hblank : isBlank x = false) (hdigit : x.isDigit = false) (hplus : x ≠ '+') (hminus : x ≠ '-') :
    x ∉ t := by
  obtain ⟨blanks, numeral, rfl, hblanks, hnumeral, -⟩ := h
  rw [List.mem_append, not_or]
  refine ⟨fun hmem => ?_, hnumeral.numeral.not_mem hdigit hplus hminus⟩
  rw [hblanks x hmem] at hblank
  cases hblank

/-- No mark of a fraction stands in a date and a time without one. -/
theorem LooseStamp.Writes.not_mem {s : LooseStamp} {n : StampNumbers} (h : s.Writes n) {x : Char}
    (hx : x = '.' ∨ x = ',') : x ∉ s.text := by
  have hblank : isBlank x = false := by rcases hx with rfl | rfl <;> decide
  have hdigit : x.isDigit = false := by rcases hx with rfl | rfl <;> decide
  have hplus : x ≠ '+' := by rcases hx with rfl | rfl <;> decide
  have hdash : x ≠ '-' := by rcases hx with rfl | rfl <;> decide
  have hcolon : x ≠ ':' := by rcases hx with rfl | rfl <;> decide
  simp [LooseStamp.text, h.year.not_mem hblank hdigit hplus hdash, h.month.not_mem hblank hdigit,
    h.day.not_mem hblank hdigit, h.hour.not_mem hblank hdigit, h.minute.not_mem hblank hdigit,
    h.second.not_mem hblank hdigit, hdash, hcolon]

namespace StampReader

variable {α : Type} {t rest : Text} {low high n : Nat} {y : Int}

theorem blanks_append {part : Text} (hpart : ∀ c ∈ part, isBlank c = true)
    (hrest : ∀ c ∈ rest.head?, isBlank c = false) : blanks (part ++ rest) = .ok ((), rest) := by
  rw [blanks, Text.trimStart, List.dropWhile_append_of_pos hpart]
  cases rest with
  | nil => rfl
  | cons c rest => rw [List.dropWhile_cons_of_neg (by simp [hrest c rfl])]

theorem exists_of_blanks (h : blanks t = .ok ((), rest)) :
    ∃ part, t = part ++ rest ∧ ∀ c ∈ part, isBlank c = true := by
  cases h
  exact ⟨t.takeWhile isBlank, List.takeWhile_append_dropWhile.symm,
    fun c hc => List.mem_takeWhile_imp hc⟩

/-- Of so many items at most, those of a class at the start are taken until another one stops it. -/
theorem takeWhile_take_spec (p : Char → Bool) (most : Nat) (t : Text) :
    let run := (t.take most).takeWhile p
    t = run ++ t.drop run.length ∧
      (run.length = most ∨ run.length ≤ most ∧ ∀ c ∈ (t.drop run.length).head?, p c = false) := by
  induction t generalizing most with
  | nil => simp
  | cons c t ih =>
    cases most with
    | zero => simp
    | succ most =>
      obtain ⟨hsplit, hstop⟩ := ih most
      by_cases hc : p c = true
      · simp only [List.take_succ_cons, List.takeWhile_cons_of_pos hc, List.length_cons,
          List.drop_succ_cons, List.cons_append]
        refine ⟨congrArg (c :: ·) hsplit, ?_⟩
        rcases hstop with hall | ⟨hle, hother⟩
        · exact .inl (congrArg (· + 1) hall)
        · exact .inr ⟨Nat.succ_le_succ hle, hother⟩
      · simp [hc]

/-- What is taken as a number are the digits at the start, as many as may be. -/
theorem exists_of_digits {most : Nat} (hmost : most ≠ 0) (h : digits most t = .ok (n, rest)) :
    ∃ run, t = run ++ rest ∧ Digits run n ∧
      (run.length = most ∨ run.length ≤ most ∧ ∀ c ∈ rest.head?, c.isDigit = false) := by
  cases t with
  | nil => cases h
  | cons c t =>
    rw [digits] at h
    split at h
    · next hc =>
      dsimp only at h
      split at h
      · cases h
        obtain ⟨hsplit, hstop⟩ := takeWhile_take_spec Char.isDigit most (c :: t)
        refine ⟨_, hsplit, ⟨?_, fun d hd => List.mem_takeWhile_imp hd, rfl⟩, hstop⟩
        obtain ⟨k, rfl⟩ := Nat.exists_eq_succ_of_ne_zero hmost
        simp [hc]
      · cases h
    · cases h

theorem exists_of_field (h : field low high t = .ok (n, rest)) :
    ∃ part, t = part ++ rest ∧ WritesNumber part n rest ∧ low ≤ n ∧ n ≤ high := by
  obtain ⟨_, t', hblanks, hthen⟩ := exists_of_bind h
  obtain ⟨m, t'', hdigits, hvalue⟩ := exists_of_bind hthen
  obtain ⟨gap, rfl, hgap⟩ := exists_of_blanks hblanks
  obtain ⟨run, rfl, hrun, hstop⟩ := exists_of_digits (by decide) hdigits
  split at hvalue
  · next hbounds =>
    cases hvalue
    exact ⟨gap ++ run, (List.append_assoc _ _ _).symm, ⟨gap, run, rfl, hgap, hrun, hstop⟩, hbounds⟩
  · cases hvalue

theorem field_of_writes {part : Text} (h : WritesNumber part n rest) (hbounds : low ≤ n ∧ n ≤ high) :
    field low high (part ++ rest) = .ok (n, rest) := by
  obtain ⟨gap, run, rfl, hgap, ⟨hne, hrun, hvalue⟩, hstop⟩ := h
  have hvalue : n = digitsValue run := Int.ofNat.inj hvalue
  have hlength : run.length ≤ 2 := hstop.elim Nat.le_of_eq And.left
  have hlt : digitsValue run < 10 ^ 2 :=
    (digitsValue_lt hrun).trans_le (Nat.pow_le_pow_right (by decide) hlength)
  have hblanks : blanks (gap ++ (run ++ rest)) = .ok ((), run ++ rest) := by
    apply blanks_append hgap
    cases run with
    | nil => exact absurd rfl hne
    | cons c run => simpa using isBlank_of_isDigit (hrun c List.mem_cons_self)
  have hdigits := digits_of_run rest hne hrun hstop (holds_of_lt (by omega))
  rw [List.append_assoc, field, bind_of_ok hblanks, bind_of_ok hdigits, ← hvalue, if_pos hbounds]
  rfl

theorem field_of_writes_mark {part : Text} {mark : Char} (h : WritesNumber part n [mark])
    (hbounds : low ≤ n ∧ n ≤ high) (rest : Text) :
    field low high (part ++ mark :: rest) = .ok (n, mark :: rest) :=
  field_of_writes (h.before rfl) hbounds

theorem exists_of_yearNumber (h : yearNumber t = .ok (y, rest)) :
    ∃ part, t = part ++ rest ∧ YearNumeral part y := by
  have hsigned {t : Text} {r : Nat × Text} (h : digits t.length t = .ok r) :
      ∃ run, t = run ++ r.2 ∧ Digits run r.1 := by
    have hlength : t.length ≠ 0 := by
      intro hzero
      rw [List.length_eq_zero_iff.1 hzero] at h
      cases h
    obtain ⟨run, hsplit, hrun, -⟩ := exists_of_digits hlength h
    exact ⟨run, hsplit, hrun⟩
  unfold yearNumber at h
  split at h
  · next t =>
    cases hdigits : digits t.length t <;> rw [hdigits] at h <;> cases h
    obtain ⟨run, hsplit, hrun⟩ := hsigned hdigits
    exact ⟨'-' :: run, congrArg ('-' :: ·) hsplit, .minus hrun⟩
  · next t =>
    cases hdigits : digits t.length t <;> rw [hdigits] at h <;> cases h
    obtain ⟨run, hsplit, hrun⟩ := hsigned hdigits
    exact ⟨'+' :: run, congrArg ('+' :: ·) hsplit, .plus hrun⟩
  · cases hdigits : digits 4 t <;> rw [hdigits] at h <;> cases h
    obtain ⟨run, hsplit, hrun, hstop⟩ := exists_of_digits (by decide) hdigits
    exact ⟨run, hsplit, .plain hrun (hstop.elim Nat.le_of_eq And.left)⟩

theorem exists_of_year (h : year t = .ok (y, rest)) : ∃ part, t = part ++ rest ∧ WritesYear part y := by
  obtain ⟨_, t', hblanks, hthen⟩ := exists_of_bind h
  obtain ⟨y', t'', hnumber, hvalue⟩ := exists_of_bind hthen
  obtain ⟨gap, rfl, hgap⟩ := exists_of_blanks hblanks
  obtain ⟨numeral, rfl, hnumeral⟩ := exists_of_yearNumber hnumber
  split at hvalue
  · next hspan =>
    cases hvalue
    exact ⟨gap ++ numeral, (List.append_assoc _ _ _).symm, gap, numeral, rfl, hgap, hnumeral, hspan⟩
  · cases hvalue

theorem yearNumber_of_numeral {part : Text} (h : YearNumeral part y)
    (hspan : Span.int32.holds y = true) (rest : Text) :
    yearNumber (part ++ '-' :: rest) = .ok (y, '-' :: rest) := by
  have hstop : ∀ c ∈ ('-' :: rest).head?, c.isDigit = false := by
    rintro c ⟨⟩
    decide
  rw [Span.holds_iff, Span.int32] at hspan
  dsimp only at hspan
  have hdigits {run : Text} {y : Int} {most : Nat} (h : Digits run y) (hy : y < 2147483649)
      (hmost : run.length ≤ most) :
      digits most (run ++ '-' :: rest) = .ok (digitsValue run, '-' :: rest) := by
    obtain ⟨hne, hrun, rfl⟩ := h
    apply digits_of_run _ hne hrun (.inr ⟨hmost, hstop⟩)
    rw [Span.holds_iff, Span.int64]
    dsimp only
    omega
  have hlength (run : Text) : run.length ≤ (run ++ '-' :: rest).length := by simp
  cases h with
  | plain h hmost =>
    have hread := hdigits h (by omega) hmost
    obtain ⟨hne, hrun, rfl⟩ := h
    obtain ⟨c, cs, rfl⟩ := List.exists_cons_of_ne_nil hne
    have hc : c.isDigit = true := hrun c List.mem_cons_self
    rw [List.cons_append] at hread ⊢
    unfold yearNumber
    split
    · next heq => exact absurd (List.cons.inj heq).1 (ne_of_isDigit hc (by decide))
    · next heq => exact absurd (List.cons.inj heq).1 (ne_of_isDigit hc (by decide))
    · rw [hread]
      rfl
  | plus h =>
    rw [List.cons_append, yearNumber, hdigits h (by omega) (hlength _), h.2.2]
    rfl
  | minus h =>
    rw [List.cons_append, yearNumber, hdigits h (by omega) (hlength _), h.2.2]
    rfl

theorem year_of_writes {part : Text} (h : WritesYear part y) (rest : Text) :
    year (part ++ '-' :: rest) = .ok (y, '-' :: rest) := by
  obtain ⟨gap, numeral, rfl, hgap, hnumeral, hspan⟩ := h
  have hblanks : blanks (gap ++ (numeral ++ '-' :: rest)) = .ok ((), numeral ++ '-' :: rest) := by
    apply blanks_append hgap
    cases hnumeral with
    | plain h _ =>
      obtain ⟨c, cs, rfl⟩ := List.exists_cons_of_ne_nil h.1
      simpa using isBlank_of_isDigit (h.2.1 c List.mem_cons_self)
    | plus _ => simp [show isBlank '+' = false by decide]
    | minus _ => simp [show isBlank '-' = false by decide]
  rw [List.append_assoc, year, bind_of_ok hblanks,
    bind_of_ok (yearNumber_of_numeral hnumeral hspan rest), if_pos hspan]
  rfl

/-- The blanks before a number can be skipped ahead of it. -/
theorem exists_of_writes {part : Text} (h : WritesNumber part n rest) (more : Text) :
    ∃ number, blanks (part ++ more) = .ok ((), number ++ more) ∧ WritesNumber number n rest := by
  obtain ⟨gap, run, rfl, hgap, hrun, hstop⟩ := h
  refine ⟨run, ?_, [], run, rfl, fun c hc => absurd hc List.not_mem_nil, hrun, hstop⟩
  rw [List.append_assoc]
  apply blanks_append hgap
  obtain ⟨c, cs, rfl⟩ := List.exists_cons_of_ne_nil hrun.1
  simpa using isBlank_of_isDigit (hrun.2.1 c List.mem_cons_self)

/-- What is taken as a time are three numbers with colons between them. -/
theorem exists_of_clock {hour minute second : Nat}
    (h : clock t = .ok ((hour, minute, second), rest)) :
    ∃ s s' s'', t = s ++ ':' :: (s' ++ ':' :: (s'' ++ rest)) ∧
      (WritesNumber s hour [':'] ∧ 0 ≤ hour ∧ hour ≤ 23) ∧
      (WritesNumber s' minute [':'] ∧ 0 ≤ minute ∧ minute ≤ 59) ∧
      WritesNumber s'' second rest ∧ 0 ≤ second ∧ second ≤ 60 := by
  obtain ⟨_, t₁, hhour, h⟩ := exists_of_bind h
  obtain ⟨_, t₂, hcolon, h⟩ := exists_of_bind h
  obtain ⟨_, t₃, hminute, h⟩ := exists_of_bind h
  obtain ⟨_, t₄, hcolon', h⟩ := exists_of_bind h
  obtain ⟨_, t₅, hsecond, h⟩ := exists_of_bind h
  cases h
  obtain ⟨s, rfl, hs, hbounds⟩ := exists_of_field hhour
  obtain ⟨s', rfl, hs', hbounds'⟩ := exists_of_field hminute
  obtain ⟨s'', rfl, hs'', hbounds''⟩ := exists_of_field hsecond
  obtain rfl := eq_of_literal hcolon
  obtain rfl := eq_of_literal hcolon'
  exact ⟨s, s', s'', rfl, ⟨hs.before rfl, hbounds⟩, ⟨hs'.before rfl, hbounds'⟩, hs'', hbounds''⟩

/-- What is read as a numeric stamp is a date and a time, and then the end or a fraction. -/
theorem exists_of_numeric {r : LocalTime × Text} (h : numeric t = .ok r) :
    ∃ (s : LooseStamp) (n : StampNumbers), s.Writes n ∧
      (t = s.text ∨ ∃ run, t = s.text ++ '.' :: run ∧ run ≠ [] ∧ ∀ c ∈ run, c.isDigit = true) := by
  obtain ⟨year, t₁, hyear, h⟩ := exists_of_bind h
  obtain ⟨_, t₂, hdash, h⟩ := exists_of_bind h
  obtain ⟨month, t₃, hmonth, h⟩ := exists_of_bind h
  obtain ⟨_, t₄, hdash', h⟩ := exists_of_bind h
  obtain ⟨day, t₅, hday, h⟩ := exists_of_bind h
  obtain ⟨_, t₆, hblanks, h⟩ := exists_of_bind h
  obtain ⟨⟨hour, minute, second⟩, t₇, hclock, h⟩ := exists_of_bind h
  obtain ⟨micros, t₈, hfraction, h⟩ := exists_of_bind h
  obtain ⟨_, t₉, hfinish, -⟩ := exists_of_bind h
  obtain ⟨y, rfl, hy⟩ := exists_of_year hyear
  obtain ⟨mo, rfl, hmo, hmonth_bounds⟩ := exists_of_field hmonth
  obtain ⟨d, rfl, hd, hday_bounds⟩ := exists_of_field hday
  obtain ⟨gap, rfl, hgap⟩ := exists_of_blanks hblanks
  obtain ⟨hh, mi, se, rfl, ⟨hhh, hhour⟩, ⟨hmi, hminute⟩, hse, hsecond⟩ := exists_of_clock hclock
  obtain rfl := eq_of_literal hdash
  obtain rfl := eq_of_literal hdash'
  obtain rfl := eq_nil_of_finish hfinish
  refine ⟨⟨y, mo, d, gap ++ hh, mi, se⟩, ⟨year, month, day, hour, minute, second⟩,
    ⟨hy, hmo.before rfl, hmonth_bounds, hd.before ?_, hday_bounds, hhh.behind_blanks hgap, hhour, hmi,
      hminute, hse.of_stop nofun, hsecond⟩, ?_⟩
  · obtain ⟨c, cs, hcons⟩ := List.exists_cons_of_ne_nil (hhh.behind_blanks hgap).ne_nil
    rw [← List.append_assoc, hcons]
    rfl
  · rcases cases_of_fraction hfraction with rfl | ⟨run, rfl, hrun⟩
    · left
      simp [LooseStamp.text]
    · exact .inr ⟨run, by simp [LooseStamp.text], hrun⟩

theorem clock_of_writes {s : LooseStamp} {n : StampNumbers} (h : s.Writes n) {hour : Text}
    (hhour : WritesNumber hour n.hour [':']) (hrest : ∀ c ∈ rest.head?, c.isDigit = false) :
    clock (hour ++ ':' :: (s.minute ++ ':' :: (s.second ++ rest))) =
      .ok ((n.hour, n.minute, n.second), rest) := by
  rw [clock, bind_of_ok (field_of_writes_mark hhour h.hour_bounds _), bind_of_ok (literal_colon _),
    bind_of_ok (field_of_writes_mark h.minute h.minute_bounds _), bind_of_ok (literal_colon _),
    bind_of_ok (field_of_writes (h.second.of_stop hrest) h.second_bounds)]
  rfl

/-- A date and a time with a fraction are read as their numbers. -/
theorem numeric_of_writes {s : LooseStamp} {n : StampNumbers} (h : s.Writes n) {run : Text}
    (hne : run ≠ []) (hrun : ∀ c ∈ run, c.isDigit = true) :
    numeric (s.text ++ '.' :: run) =
      match n.localTime? run with
      | some t => .ok (t, [])
      | none => .error .outOfRange := by
  have hpoint : ∀ c ∈ ('.' :: run).head?, c.isDigit = false := by
    rintro c ⟨⟩
    decide
  obtain ⟨hour, hblanks, hhour⟩ :=
    exists_of_writes h.hour (':' :: (s.minute ++ ':' :: (s.second ++ '.' :: run)))
  have hday : (s.hour ++ ':' :: (s.minute ++ ':' :: (s.second ++ '.' :: run))).head? =
      s.hour.head? := by
    obtain ⟨c, cs, hcons⟩ := List.exists_cons_of_ne_nil h.hour.ne_nil
    rw [hcons]
    rfl
  have hfinish : finish [] = .ok ((), []) := rfl
  simp only [LooseStamp.text, List.append_assoc, List.cons_append, numeric]
  rw [bind_of_ok (year_of_writes h.year _), bind_of_ok (literal_dash _),
    bind_of_ok (field_of_writes_mark h.month h.month_bounds _), bind_of_ok (literal_dash _),
    bind_of_ok (field_of_writes (h.day.before hday) h.day_bounds), bind_of_ok hblanks,
    bind_of_ok (clock_of_writes h hhour hpoint)]
  dsimp only
  rw [bind_of_ok (fraction_run hne hrun), bind_of_ok hfinish, StampNumbers.localTime?,
    StampNumbers.date?, dateOf]
  split
  · cases Date.ofFields? n.year n.month n.day <;> rfl
  · rfl

end StampReader

def StampForm.IsMark (form : StampForm) (c : Char) : Prop := c = '.' ∨ form = .comma ∧ c = ','

theorem StampForm.IsMark.eq_or {form : StampForm} {c : Char} (h : form.IsMark c) :
    c = '.' ∨ c = ',' := h.imp_right And.right

namespace Stamp

variable {s : LooseStamp} {n : StampNumbers} {form : StampForm} {mark : Char} {run text : Text}

theorem firstCommaToPoint_of_no_comma (h : ',' ∉ text) : firstCommaToPoint text = text := by
  have hnone : text.dropWhile (· != ',') = [] := by
    rw [List.dropWhile_eq_nil_iff]
    intro c hc
    rw [bne_iff_ne]
    rintro rfl
    exact h hc
  rw [firstCommaToPoint, hnone]

theorem pointed_of_no_comma (h : form = .comma → ',' ∉ text) : pointed form text = text := by
  rw [pointed]
  split
  · next hform => exact firstCommaToPoint_of_no_comma (h hform)
  · rfl

theorem hasFraction_of_no_point (h : '.' ∉ text) : hasFraction text = false := by
  by_contra hpoint
  have hmem : '.' ∈ text.reverse.takeWhile (· != ':') := by simpa [hasFraction] using hpoint
  exact h (List.mem_reverse.1 (List.takeWhile_subset _ hmem))

/-- A mark of the form is read as a point. -/
theorem pointed_of_mark (h : s.Writes n) (hmark : form.IsMark mark)
    (hrun : ∀ c ∈ run, c.isDigit = true) :
    pointed form (s.text ++ mark :: run) = s.text ++ '.' :: run := by
  have hcomma : ',' ∉ s.text := h.not_mem (.inr rfl)
  have hcomma' : ',' ∉ run := fun hmem => absurd (hrun _ hmem) (by decide)
  rcases hmark with rfl | ⟨rfl, rfl⟩
  · apply pointed_of_no_comma
    simp [hcomma, hcomma']
  · exact firstCommaToPoint_of_not_mem hcomma run

/-- What is read with a point has a mark of the form in its place. -/
theorem exists_mark (h : s.Writes n) (hrun : ∀ c ∈ run, c.isDigit = true)
    (htext : pointed form text = s.text ++ '.' :: run) :
    ∃ mark, form.IsMark mark ∧ text = s.text ++ mark :: run := by
  by_cases hcomma : form = .comma ∧ ',' ∈ text
  · obtain ⟨rfl, hmem⟩ := hcomma
    obtain ⟨front, tail, rfl, hfront⟩ := List.eq_append_cons_of_mem hmem
    have hpoint : '.' ∉ run := fun hmem => absurd (hrun _ hmem) (by decide)
    rw [pointed, if_pos rfl, firstCommaToPoint_of_not_mem hfront, eq_comm,
      List.append_cons_inj_of_notMem (h.not_mem (.inl rfl)) hpoint] at htext
    obtain ⟨rfl, -, rfl⟩ := htext
    exact ⟨',', .inr ⟨rfl, rfl⟩, rfl⟩
  · have hsame : pointed form text = text :=
      pointed_of_no_comma fun hform hmem => hcomma ⟨hform, hmem⟩
    exact ⟨'.', .inl rfl, hsame ▸ htext⟩

/-- A text whose numbers are read is a date and a time with a fraction. -/
theorem exists_of_pointed {r : LocalTime × Text} (hfraction : hasFraction (pointed form text) = true)
    (h : StampReader.numeric (pointed form text) = .ok r) :
    ∃ s n mark run, LooseStamp.Writes s n ∧ form.IsMark mark ∧ text = s.text ++ mark :: run ∧
      run ≠ [] ∧ ∀ c ∈ run, c.isDigit = true := by
  obtain ⟨s, n, hs, hwhole | ⟨run, htext, hne, hrun⟩⟩ := StampReader.exists_of_numeric h
  · rw [hwhole, hasFraction_of_no_point (hs.not_mem (.inl rfl))] at hfraction
    cases hfraction
  · obtain ⟨mark, hmark, htext⟩ := exists_mark hs hrun htext
    exact ⟨s, n, mark, run, hs, hmark, htext, hne, hrun⟩

/-- A date and a time alone have no fraction in any form. -/
theorem hasFraction_pointed_of_writes (h : s.Writes n) (form : StampForm) :
    hasFraction (pointed form s.text) = false := by
  rw [pointed_of_no_comma fun _ => h.not_mem (.inr rfl), hasFraction_of_no_point (h.not_mem (.inl rfl))]

theorem read_of_writes (hform : form ≠ .exported) (h : s.Writes n) (hmark : form.IsMark mark)
    (hne : run ≠ []) (hrun : ∀ c ∈ run, c.isDigit = true) (zone : Zone) :
    read form zone (s.text ++ mark :: run) =
      match n.localTime? run with
      | none => .error (.invalid (s.text ++ mark :: run) form .outOfRange)
      | some t =>
        match t.epochMicros? zone with
        | some micros => .ok micros
        | none => .error (.nonexistent (s.text ++ mark :: run)) := by
  have hcolon : ':' ∉ run := fun hmem => absurd (hrun _ hmem) (by decide)
  rw [read_eq hform, pointed_of_mark h hmark hrun, hasFraction_of_point _ hcolon, if_pos rfl,
    StampReader.numeric_of_writes h hne hrun]
  cases n.localTime? run <;> rfl

/-- A numeric stamp is read only if it is a date and a time with a fraction right behind its seconds,
and every such text is read as its numbers unless its date is outside the calendar or no instant has
its local time. The date and the time alone, and whatever text would be read with a fraction put
behind it, are reported for the missing fraction. No text is reported for it that has a point behind
its last colon. -/
theorem read_needs_fraction {form : StampForm} (hform : form ≠ .exported) (zone : Zone)
    (text : Text) :
    (∀ micros, read form zone text = .ok micros →
      ∃ (s : LooseStamp) (n : StampNumbers) (mark : Char) (run : Text), s.Writes n ∧
        form.IsMark mark ∧ mark ∉ s.text ∧ text = s.text ++ mark :: run ∧ run ≠ [] ∧
        ∀ c ∈ run, c.isDigit = true) ∧
    (∀ (s : LooseStamp) (n : StampNumbers), s.Writes n → text = s.text →
      read form zone text = .error (.missingFraction text)) ∧
    (∀ mark tail, form.IsMark mark →
      (∀ fault, read form zone (text ++ mark :: tail) = .error fault →
        fault = .nonexistent (text ++ mark :: tail)) →
      read form zone text = .error (.missingFraction text)) ∧
    (∀ (s : LooseStamp) (n : StampNumbers) mark run, s.Writes n → form.IsMark mark →
      text = s.text ++ mark :: run → run ≠ [] → (∀ c ∈ run, c.isDigit = true) →
      read form zone text =
        match n.localTime? run with
        | none => .error (.invalid text form .outOfRange)
        | some t =>
          match t.epochMicros? zone with
          | some micros => .ok micros
          | none => .error (.nonexistent text)) ∧
    ∀ t, read form zone text = .error (.missingFraction t) →
      t = text ∧ ∀ before behind, pointed form text = before ++ '.' :: behind → ':' ∈ behind := by
  have hmissing {s : LooseStamp} {n : StampNumbers} (h : s.Writes n) :
      read form zone s.text = .error (.missingFraction s.text) := by
    rw [read_eq hform, hasFraction_pointed_of_writes h]
    rfl
  refine ⟨?_, ?_, ?_, ?_, ?_⟩
  · intro micros hread
    rw [read_eq hform] at hread
    split at hread
    · next hfraction =>
      cases hnumeric : StampReader.numeric (pointed form text) with
      | error cause =>
        rw [hnumeric] at hread
        cases hread
      | ok r =>
        obtain ⟨s, n, mark, run, hs, hmark, htext, hrun⟩ := exists_of_pointed hfraction hnumeric
        exact ⟨s, n, mark, run, hs, hmark, hs.not_mem hmark.eq_or, htext, hrun⟩
    · cases hread
  · rintro s n hs rfl
    exact hmissing hs
  · intro mark tail hmark hread
    rw [read_eq hform] at hread
    split at hread
    · next hfraction =>
      cases hnumeric : StampReader.numeric (pointed form (text ++ mark :: tail)) with
      | error cause =>
        rw [hnumeric] at hread
        cases hread _ rfl
      | ok r =>
        obtain ⟨s, n, mark', run, hs, -, htext, -, hrun⟩ := exists_of_pointed hfraction hnumeric
        have hdigit : mark ∉ run := by
          intro hmem
          rcases hmark.eq_or with rfl | rfl <;> exact absurd (hrun _ hmem) (by decide)
        obtain ⟨rfl, -⟩ :=
          (List.append_cons_inj_of_notMem (hs.not_mem hmark.eq_or) hdigit).1 htext.symm
        exact hmissing hs
    · cases hread _ rfl
  · rintro s n mark run hs hmark rfl hne hrun
    exact read_of_writes hform hs hmark hne hrun zone
  · intro t hread
    rw [read_eq hform] at hread
    split at hread
    · cases hnumeric : StampReader.numeric (pointed form text) with
      | error cause =>
        rw [hnumeric] at hread
        cases hread
      | ok r =>
        rw [hnumeric] at hread
        dsimp only at hread
        split at hread <;> cases hread
    · next hfraction =>
      cases hread
      refine ⟨rfl, fun before behind htext => ?_⟩
      by_contra hcolon
      exact hfraction (htext ▸ hasFraction_of_point before hcolon)

/-- A date and a time with a sign, single digits and blanks before some numbers but not before the
hour. -/
def looseSample : LooseStamp :=
  ⟨"+2023".toList, " 2".toList, "10".toList, "0".toList, " 3".toList, "15".toList⟩

theorem writes_looseSample : looseSample.Writes ⟨2023, 2, 10, 0, 3, 15⟩ := by
  have hnumber {t : Text} {n : Nat} (blanks digits rest : Text) (ht : t = blanks ++ digits)
      (hblanks : blanks.all isBlank = true) (hdigits : digits.all Char.isDigit = true)
      (hne : digits ≠ []) (hn : n = digitsValue digits)
      (hlength : digits.length = 2 ∨ digits.length ≤ 2 ∧ rest.head?.all (!·.isDigit) = true) :
      WritesNumber t n rest := by
    refine ⟨blanks, digits, ht, List.all_eq_true.1 hblanks, ⟨hne, List.all_eq_true.1 hdigits, ?_⟩, ?_⟩
    · rw [hn]
    · refine hlength.imp_right (And.imp_right fun hstop c hc => ?_)
      rw [hc] at hstop
      simpa using hstop
  constructor
  · have hyear : Digits "2023".toList 2023 :=
      ⟨by decide, List.all_eq_true.1 (by decide), by decide⟩
    exact ⟨[], "+2023".toList, rfl, nofun, .plus hyear, by decide⟩
  · exact hnumber [' '] ['2'] _ rfl rfl rfl (by decide) rfl (by decide)
  · decide
  · exact hnumber [] ['1', '0'] _ rfl rfl rfl (by decide) rfl (by decide)
  · decide
  · exact hnumber [] ['0'] _ rfl rfl rfl (by decide) rfl (by decide)
  · decide
  · exact hnumber [' '] ['3'] _ rfl rfl rfl (by decide) rfl (by decide)
  · decide
  · exact hnumber [] ['1', '5'] _ rfl rfl rfl (by decide) rfl (by decide)
  · decide

/-- Read as UTC. -/
theorem read_needs_fraction_looseSample :
    StampForm.comma ≠ .exported ∧
    read .comma (.fixed 0) looseSample.text = .error (.missingFraction looseSample.text) ∧
    read .comma (.fixed 0) (looseSample.text ++ ",398".toList) = .ok 1675987395398000 ∧
    ∃ (s : LooseStamp) (n : StampNumbers) (mark : Char) (run : Text), s.Writes n ∧
      StampForm.comma.IsMark mark ∧ looseSample.text ++ ",398".toList = s.text ++ mark :: run ∧
      run ≠ [] := by
  have hform : StampForm.comma ≠ .exported := nofun
  obtain ⟨-, hmissing, -, -, -⟩ := read_needs_fraction hform (.fixed 0) looseSample.text
  obtain ⟨hshape, -, -, hvalue, -⟩ :=
    read_needs_fraction hform (.fixed 0) (looseSample.text ++ ",398".toList)
  have hdigits : ∀ c ∈ "398".toList, c.isDigit = true := List.all_eq_true.1 (by decide)
  have hread : read .comma (.fixed 0) (looseSample.text ++ ",398".toList) = .ok 1675987395398000 :=
    (hvalue looseSample _ ',' "398".toList writes_looseSample (.inr ⟨rfl, rfl⟩) rfl (by decide)
      hdigits).trans (by decide +kernel)
  obtain ⟨s, n, mark, run, hs, hmark, -, htext, hne, -⟩ := hshape _ hread
  exact ⟨hform, hmissing looseSample _ writes_looseSample rfl, hread, s, n, mark, run, hs, hmark,
    htext, hne⟩

end Stamp
end ReplayLog
