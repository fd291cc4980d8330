import ReplayLog.Proofs.DecimalPrinting
import ReplayLog.Proofs.Trimming
import ReplayLog.Time.Offset

/-! # The notation of offsets

An offset is written `Z`, `UTC` or as a sign with hours and perhaps minutes. All of these are read,
and as what they stand for. More than these is read, because each of the two numbers is read as an
integer: it may have a sign of its own, and the minutes may exceed an hour. Where the hours, the
minutes or their sum are too many seconds for 32 bits, the reading does not fail but overflows. -/
namespace ReplayLog

namespace Integer

def Digits (t : Text) (n : Int) : Prop :=
  t ≠ [] ∧ (∀ c ∈ t, c.isDigit = true) ∧ n = digitsValue t

/-- ASCII digits with or without a sign before them, and the integer that they stand for. -/
inductive Numeral : Text → Int → Prop
  | unsigned {t : Text} {n : Int} (h : Digits t n) : Numeral t n
  | plus {t : Text} {n : Int} (h : Digits t n) : Numeral ('+' :: t) n
  | minus {t : Text} {n : Int} (h : Digits t n) : Numeral ('-' :: t) (-n)

theorem Digits.nonneg {t : Text} {n : Int} (h : Digits t n) : 0 ≤ n := by
  rw [h.2.2]
  exact Int.natCast_nonneg _

theorem Digits.not_mem {t : Text} {n : Int} (h : Digits t n) {x : Char}
    (hx : x.isDigit = false) : x ∉ t :=
  fun hmem => ne_of_isDigit (h.2.1 x hmem) hx rfl

theorem Numeral.not_mem {t : Text} {n : Int} (h : Numeral t n) {x : Char} (hx : x.isDigit = false)
    (hplus : x ≠ '+') (hminus : x ≠ '-') : x ∉ t := by
  cases h with
  | unsigned h => exact h.not_mem hx
  | plus h => exact List.not_mem_cons_of_ne_of_not_mem hplus (h.not_mem hx)
  | minus h => exact List.not_mem_cons_of_ne_of_not_mem hminus (h.not_mem hx)

/-- An integer without a sign is one of digits. -/
theorem Numeral.digits {t : Text} {n : Int} (h : Numeral t n)
    (hsign : ∀ c ∈ t, c ≠ '+' ∧ c ≠ '-') : Digits t n := by
  cases h with
  | unsigned h => exact h
  | plus h => exact absurd rfl (hsign '+' List.mem_cons_self).1
  | minus h => exact absurd rfl (hsign '-' List.mem_cons_self).2

theorem digits_zero_iff {n : Int} : Digits ['0'] n ↔ n = 0 :=
  ⟨fun h => h.2.2, fun h => ⟨List.cons_ne_nil _ _, forall_mem_of_all rfl, h⟩⟩

theorem numeral_plus_iff {t : Text} {n : Int} : Numeral ('+' :: t) n ↔ Digits t n := by
  constructor
  · intro h
    cases h with
    | unsigned h => exact absurd List.mem_cons_self (h.not_mem (x := '+') (by decide))
    | plus h => exact h
  · exact .plus

theorem numeral_minus_iff {t : Text} {n : Int} : Numeral ('-' :: t) n ↔ Digits t (-n) := by
  constructor
  · intro h
    cases h with
    | unsigned h => exact absurd List.mem_cons_self (h.not_mem (x := '-') (by decide))
    | minus h => rwa [Int.neg_neg]
  · intro h
    have hneg := Numeral.minus h
    rwa [Int.neg_neg] at hneg

variable {s : Span} {sign n : Int} {excess : IntegerFault} {digits : Text}

/-- What is read digit by digit are digits, and the number stays in the span. -/
theorem of_foldlM_push {value : Nat} (hvalue : s.holds (sign * value) = true)
    (h : digits.foldlM (push s sign excess) (sign * value) = .ok n) :
    (∀ c ∈ digits, c.isDigit = true) ∧ s.holds n = true ∧
      n = sign * (digits.foldl (fun n c => n * 10 + digitValue c) value : Nat) := by
  induction digits generalizing value with
  | nil =>
    cases h
    exact ⟨fun c hc => absurd hc List.not_mem_nil, hvalue, rfl⟩
  | cons c digits ih =>
    have hnext : sign * value * 10 + sign * digitValue c =
        sign * ((value * 10 + digitValue c : Nat) : Int) := by
      rw [Int.natCast_add, Int.natCast_mul, Int.mul_add, Int.mul_assoc]
      rfl
    rw [List.foldlM_cons, push] at h
    split at h
    · next hc =>
      dsimp only at h
      rw [hnext] at h
      split at h
      · next hspan =>
        obtain ⟨hdigits, hn⟩ := ih hspan h
        exact ⟨List.forall_mem_cons.2 ⟨hc, hdigits⟩, hn⟩
      · cases h
    · cases h

theorem ofDigits_eq_ok_iff (hzero : s.holds 0 = true) (hsign : sign = 1 ∨ sign = -1) :
    ofDigits s sign excess digits = .ok n ↔ Digits digits (sign * n) ∧ s.holds n = true := by
  have hsquare (k : Int) : sign * (sign * k) = k := by
    rcases hsign with rfl | rfl <;> omega
  constructor
  · intro h
    rw [ofDigits] at h
    split at h
    · cases h
    · next hne =>
      have hstart : sign * ((0 : Nat) : Int) = 0 := Int.mul_zero sign
      rw [← hstart] at h hzero
      obtain ⟨hdigits, hspan, rfl⟩ := of_foldlM_push hzero h
      exact ⟨⟨by simpa using hne, hdigits, hsquare _⟩, hspan⟩
  · rintro ⟨⟨hne, hdigits, hn⟩, hspan⟩
    rw [Span.holds_iff] at hzero hspan
    have hupto : ∀ k : Nat, k ≤ digitsValue digits → s.holds (sign * k) = true := by
      intro k hk
      rw [Span.holds_iff]
      rcases hsign with rfl | rfl <;> omega
    rw [ofDigits_eq excess hne hdigits hupto, ← hn, hsquare]

/-- The integers of a span with zero are read from just their numerals. -/
theorem read_eq_ok_iff {t : Text} (hzero : s.holds 0 = true) :
    read s t = .ok n ↔ Numeral t n ∧ s.holds n = true := by
  have hplus (excess : IntegerFault) (digits : Text) :
      ofDigits s 1 excess digits = .ok n ↔ Digits digits n ∧ s.holds n = true := by
    rw [ofDigits_eq_ok_iff hzero (.inl rfl), Int.one_mul]
  unfold read
  split
  · refine ⟨nofun, ?_⟩
    rintro ⟨h | h | h, -⟩
    exact absurd rfl h.1
  · next digits => rw [hplus, numeral_plus_iff]
  · next digits =>
    rw [ofDigits_eq_ok_iff hzero (.inr rfl), numeral_minus_iff, Int.neg_mul, Int.one_mul]
  · next hnotplus hnotminus =>
    rw [hplus]
    refine and_congr_left fun _ => ⟨.unsigned, ?_⟩
    intro h
    cases h with
    | unsigned h => exact h
    | plus h => exact absurd rfl (hnotplus _)
    | minus h => exact absurd rfl (hnotminus _)

end Integer

namespace Offset

open Integer

inductive Sign : Char → Int → Prop
  | plus : Sign '+' 1
  | minus : Sign '-' (-1)

/-- A sign, hours, and perhaps minutes behind a colon. -/
inductive Signed (number : Text → Int → Prop) : Text → Int → Int → Int → Prop
  | hours {c : Char} {sign h : Int} {hours : Text} (hsign : Sign c sign) (hhours : number hours h) :
      Signed number (c :: hours) sign h 0
  | minutes {c : Char} {sign h m : Int} {hours minutes : Text} (hsign : Sign c sign)
      (hhours : number hours h) (hminutes : number minutes m) :
      Signed number (c :: (hours ++ ':' :: minutes)) sign h m

def Utc (t : Text) : Prop :=
  t.sameIgnoringCase ['z'] = true ∨ t.sameIgnoringCase "utc".toList = true

def total (h m : Int) : Int := h * 3600 + m * 60

/-- The text is the notation of so many seconds east of UTC. -/
def Written (t : Text) (east : Int) : Prop :=
  Utc t ∧ east = 0 ∨
    ∃ sign h m, Signed Digits t sign h m ∧ m < 60 ∧ total h m < 86400 ∧ east = sign * total h m

/-- All steps from hours and minutes to seconds stay within 32 bits. -/
def Fits (sign h m : Int) : Prop :=
  ∀ n ∈ [h * 3600, m * 60, total h m, sign * total h m], Span.int32.holds n = true

def Accepted (t : Text) (east : Int) : Prop :=
  Utc t ∧ east = 0 ∨
    ∃ sign h m, Signed Numeral t sign h m ∧ Fits sign h m ∧ east = sign * total h m ∧
      -86400 < east ∧ east < 86400

/-- The hours and the minutes of the text are integers of 32 bits, but a step from them to seconds
is not. -/
def Overflows (t : Text) : Prop :=
  ∃ sign h m, Signed Numeral t sign h m ∧ Span.int32.holds h = true ∧ Span.int32.holds m = true ∧
    ¬Fits sign h m

/-- The text has no sign behind its first character, and if it has minutes, they are less than an
hour. -/
structure Plain (t : Text) : Prop where
  unsigned : ∀ c ∈ t.tail, c ≠ '+' ∧ c ≠ '-'
  minutes : ∀ {sign h m : Int}, Signed Digits t sign h m → m < 60

variable {t text hours minutes unsigned : Text} {c : Char} {sign h m east : Int}

theorem fits_iff : Fits sign h m ↔ Span.int32.holds (h * 3600) = true ∧
    Span.int32.holds (m * 60) = true ∧ Span.int32.holds (total h m) = true ∧
    Span.int32.holds (sign * total h m) = true := by
  rw [Fits, List.forall_mem_cons, List.forall_mem_cons, List.forall_mem_cons,
    List.forall_mem_singleton]

theorem splitMinutes_of_not_mem (h : ':' ∉ t) : splitMinutes t = (t, ['0']) := by
  have hdrop : t.dropWhile (· != ':') = [] := by
    rw [List.dropWhile_eq_nil_iff]
    intro c hc
    exact bne_iff_ne.2 fun heq => h (heq ▸ hc)
  rw [splitMinutes, hdrop]

theorem splitMinutes_append (h : ':' ∉ hours) (minutes : Text) :
    splitMinutes (hours ++ ':' :: minutes) = (hours, minutes) := by
  have hall : ∀ c ∈ hours, (c != ':') = true := fun c hc => bne_iff_ne.2 fun heq => h (heq ▸ hc)
  have hdrop : (hours ++ ':' :: minutes).dropWhile (· != ':') = ':' :: minutes := by
    rw [List.dropWhile_append_of_pos hall]
    rfl
  have htake : (hours ++ ':' :: minutes).takeWhile (· != ':') = hours := by
    rw [List.takeWhile_append_of_pos hall]
    exact List.append_nil hours
  rw [splitMinutes, hdrop, htake]

/-- A text is cut at its first colon, whatever numbers without colons are read. -/
theorem signed_iff {number : Text → Int → Prop} (hcolon : ∀ {t n}, number t n → ':' ∉ t)
    (hzero : ∀ {n}, number ['0'] n ↔ n = 0) :
    Signed number t sign h m ↔ ∃ c unsigned, t = c :: unsigned ∧ Sign c sign ∧
      number (splitMinutes unsigned).1 h ∧ number (splitMinutes unsigned).2 m := by
  constructor
  · intro hsigned
    cases hsigned with
    | hours hsign hhours =>
      refine ⟨_, _, rfl, hsign, ?_⟩
      rw [splitMinutes_of_not_mem (hcolon hhours)]
      exact ⟨hhours, hzero.2 rfl⟩
    | minutes hsign hhours hminutes =>
      refine ⟨_, _, rfl, hsign, ?_⟩
      rw [splitMinutes_append (hcolon hhours)]
      exact ⟨hhours, hminutes⟩
  · rintro ⟨c, unsigned, rfl, hsign, hhours, hminutes⟩
    by_cases hmem : ':' ∈ unsigned
    · obtain ⟨hours, minutes, rfl, hfree⟩ := List.eq_append_cons_of_mem hmem
      rw [splitMinutes_append hfree] at hhours hminutes
      exact .minutes hsign hhours hminutes
    · rw [splitMinutes_of_not_mem hmem] at hhours hminutes
      rw [hzero.1 hminutes]
      exact .hours hsign hhours

theorem signed_digits_iff : Signed Digits t sign h m ↔ ∃ c unsigned, t = c :: unsigned ∧
    Sign c sign ∧ Digits (splitMinutes unsigned).1 h ∧ Digits (splitMinutes unsigned).2 m :=
  signed_iff (fun h => h.not_mem (by decide)) digits_zero_iff

theorem signed_numeral_iff : Signed Numeral t sign h m ↔ ∃ c unsigned, t = c :: unsigned ∧
    Sign c sign ∧ Numeral (splitMinutes unsigned).1 h ∧ Numeral (splitMinutes unsigned).2 m := by
  refine signed_iff (fun h => h.not_mem (by decide) (by decide) (by decide)) ?_
  intro n
  constructor
  · intro h
    cases h with
    | unsigned h => exact digits_zero_iff.1 h
  · intro h
    exact .unsigned (digits_zero_iff.2 h)

theorem Signed.numeral (hsigned : Signed Digits t sign h m) : Signed Numeral t sign h m := by
  cases hsigned with
  | hours hsign hhours => exact .hours hsign (.unsigned hhours)
  | minutes hsign hhours hminutes => exact .minutes hsign (.unsigned hhours) (.unsigned hminutes)

/-- Without further signs the two numbers are digits. -/
theorem Signed.digits (hsigned : Signed Numeral t sign h m)
    (hsign : ∀ c ∈ t.tail, c ≠ '+' ∧ c ≠ '-') : Signed Digits t sign h m := by
  cases hsigned with
  | hours hs hhours => exact .hours hs (hhours.digits hsign)
  | minutes hs hhours hminutes =>
    rw [List.tail_cons] at hsign
    refine .minutes hs (hhours.digits fun c hc => hsign c (List.mem_append_left _ hc)) ?_
    exact hminutes.digits fun c hc =>
      hsign c (List.mem_append_right _ (List.mem_cons_of_mem _ hc))

theorem Signed.sign_eq {number : Text → Int → Prop} (hsigned : Signed number t sign h m) :
    sign = 1 ∨ sign = -1 := by
  cases hsigned with
  | hours hsign _ => cases hsign <;> decide
  | minutes hsign _ _ => cases hsign <;> decide

theorem Signed.nonneg (hsigned : Signed Digits t sign h m) : 0 ≤ h ∧ 0 ≤ m := by
  cases hsigned with
  | hours _ hhours => exact ⟨hhours.nonneg, Int.le_refl 0⟩
  | minutes _ hhours hminutes => exact ⟨hhours.nonneg, hminutes.nonneg⟩

/-- The notation is accepted. -/
theorem Written.accepted (hwritten : Written t east) : Accepted t east := by
  rcases hwritten with hutc | ⟨sign, h, m, hsigned, hm, htotal, rfl⟩
  · exact .inl hutc
  · obtain ⟨hh, hm'⟩ := hsigned.nonneg
    refine .inr ⟨sign, h, m, hsigned.numeral, ?_, rfl, ?_⟩
    · rw [fits_iff, Span.holds_iff, Span.holds_iff, Span.holds_iff, Span.holds_iff, Span.int32]
      rw [total] at htotal ⊢
      rcases hsigned.sign_eq with rfl | rfl <;> dsimp only <;> omega
    · rw [total] at htotal ⊢
      rcases hsigned.sign_eq with rfl | rfl <;> omega

/-- A plain text that is accepted is the notation of what it is taken for. -/
theorem Accepted.written (haccepted : Accepted t east) (hplain : Plain t) : Written t east := by
  rcases haccepted with hutc | ⟨sign, h, m, hsigned, -, rfl, hlow, hhigh⟩
  · exact .inl hutc
  · have hdigits := hsigned.digits hplain.unsigned
    obtain ⟨hh, hm⟩ := hdigits.nonneg
    refine .inr ⟨sign, h, m, hdigits, hplain.minutes hdigits, ?_, rfl⟩
    rw [total] at hlow hhigh ⊢
    rcases hsigned.sign_eq with rfl | rfl <;> omega

theorem seconds_of_holds (hhours : Span.int32.holds (h * 3600) = true)
    (hminutes : Span.int32.holds (m * 60) = true) : seconds sign h m =
      Span.int32.add (h * 3600) (m * 60) >>= Span.int32.multiply sign := by
  rw [seconds, Span.multiply, if_pos hhours, Span.multiply, if_pos hminutes]
  rfl

theorem seconds_of_fits (hfits : Fits sign h m) : seconds sign h m = .ok (sign * total h m) := by
  obtain ⟨hhours, hminutes, hsum, hproduct⟩ := fits_iff.1 hfits
  rw [total] at hsum hproduct ⊢
  rw [seconds_of_holds hhours hminutes, Span.add, if_pos hsum]
  exact if_pos hproduct

/-- By the first step that leaves the span. -/
theorem exists_overflow (hfits : ¬Fits sign h m) : ∃ o, seconds sign h m = .error o := by
  by_cases hhours : Span.int32.holds (h * 3600) = true
  · by_cases hminutes : Span.int32.holds (m * 60) = true
    · rw [seconds_of_holds hhours hminutes, Span.add]
      by_cases hsum : Span.int32.holds (h * 3600 + m * 60) = true
      · rw [if_pos hsum]
        refine ⟨.multiply, if_neg ?_⟩
        exact fun hproduct => hfits (fits_iff.2 ⟨hhours, hminutes, hsum, hproduct⟩)
      · rw [if_neg hsum]
        exact ⟨.add, rfl⟩
    · rw [seconds, Span.multiply, if_pos hhours, Span.multiply, if_neg hminutes]
      exact ⟨.multiply, rfl⟩
  · rw [seconds, Span.multiply, if_neg hhours]
    exact ⟨.multiply, rfl⟩

theorem holds_of_fits (hfits : Fits sign h m) :
    Span.int32.holds h = true ∧ Span.int32.holds m = true := by
  obtain ⟨hhours, hminutes, -⟩ := fits_iff.1 hfits
  rw [Span.holds_iff, Span.int32] at hhours hminutes ⊢
  rw [Span.holds_iff]
  dsimp only at hhours hminutes ⊢
  omega

theorem holds_zero : Span.int32.holds 0 = true := by decide

/-- Hours and minutes of 32 bits are combined, and their sum is held against a day. -/
theorem readSigned_of_holds (hhours : Numeral (splitMinutes unsigned).1 h)
    (hminutes : Numeral (splitMinutes unsigned).2 m) (hh : Span.int32.holds h = true)
    (hm : Span.int32.holds m = true) (text : Text) (sign : Int) :
    readSigned text sign unsigned = (seconds sign h m).mapError .overflow >>= fun east =>
      if -86400 < east ∧ east < 86400 then .ok east else .error (.fault (.range text)) := by
  have hreadhours := (read_eq_ok_iff holds_zero).2 ⟨hhours, hh⟩
  have hreadminutes := (read_eq_ok_iff holds_zero).2 ⟨hminutes, hm⟩
  rw [readSigned]
  dsimp only
  rw [hreadhours, hreadminutes]
  rfl

/-- Anything else is at fault for its hours or for its minutes. -/
theorem exists_fault_of_readSigned (hno : ¬∃ h m, Numeral (splitMinutes unsigned).1 h ∧
      Numeral (splitMinutes unsigned).2 m ∧ Span.int32.holds h = true ∧
      Span.int32.holds m = true) (text : Text) (sign : Int) :
    ∃ fault, readSigned text sign unsigned = .error (.fault fault) := by
  rw [readSigned]
  dsimp only
  cases hhours : Integer.read .int32 (splitMinutes unsigned).1 with
  | error cause => exact ⟨_, rfl⟩
  | ok h =>
    cases hminutes : Integer.read .int32 (splitMinutes unsigned).2 with
    | error cause => exact ⟨_, rfl⟩
    | ok m =>
      obtain ⟨hhours, hh⟩ := (read_eq_ok_iff holds_zero).1 hhours
      obtain ⟨hminutes, hm⟩ := (read_eq_ok_iff holds_zero).1 hminutes
      exact absurd ⟨h, m, hhours, hminutes, hh, hm⟩ hno

theorem read_of_utc (hutc : Utc t.trim) : read t = .ok 0 := by
  rw [read]
  exact if_pos (Bool.or_eq_true_iff.2 hutc)

/-- A sign is no letter. -/
theorem Sign.not_utc (hsign : Sign c sign) (unsigned : Text) : ¬Utc (c :: unsigned) := by
  have hhead (letter : Char) (word : Text) (hletter : c.toLower ≠ letter.toLower) :
      ¬Text.sameIgnoringCase (c :: unsigned) (letter :: word) = true := by
    intro hsame
    exact hletter (List.cons.inj (eq_of_beq hsame)).1
  rintro (hz | hutc)
  · exact hhead 'z' [] (by cases hsign <;> decide) hz
  · exact hhead 'u' "tc".toList (by cases hsign <;> decide) hutc

theorem read_of_sign (hsign : Sign c sign) (ht : t.trim = c :: unsigned) :
    read t = readSigned t.trim sign unsigned := by
  have hutc : ¬(Text.sameIgnoringCase t.trim ['z'] ||
      Text.sameIgnoringCase t.trim "utc".toList) = true := by
    rw [ht, Bool.or_eq_true_iff]
    exact hsign.not_utc unsigned
  rw [read, if_neg hutc, ht]
  cases hsign <;> rfl

theorem read_of_signed (hsigned : Signed Numeral t.trim sign h m)
    (hh : Span.int32.holds h = true) (hm : Span.int32.holds m = true) :
    read t = (seconds sign h m).mapError .overflow >>= fun east =>
      if -86400 < east ∧ east < 86400 then .ok east else .error (.fault (.range t.trim)) := by
  obtain ⟨c, unsigned, ht, hsign, hhours, hminutes⟩ := signed_numeral_iff.1 hsigned
  rw [read_of_sign hsign ht, readSigned_of_holds hhours hminutes hh hm]

theorem exists_fault_of_read (hutc : ¬Utc t.trim)
    (hno : ∀ {sign h m}, Signed Numeral t.trim sign h m →
      ¬(Span.int32.holds h = true ∧ Span.int32.holds m = true)) :
    ∃ fault, read t = .error (.fault fault) := by
  by_cases hsome : ∃ c sign unsigned, t.trim = c :: unsigned ∧ Sign c sign
  · obtain ⟨c, sign, unsigned, ht, hsign⟩ := hsome
    rw [read_of_sign hsign ht]
    apply exists_fault_of_readSigned
    rintro ⟨h, m, hhours, hminutes, hholds⟩
    exact hno (signed_numeral_iff.2 ⟨c, unsigned, ht, hsign, hhours, hminutes⟩) hholds
  · rw [read, if_neg (mt Bool.or_eq_true_iff.1 hutc)]
    split
    · next ht => exact absurd ⟨_, _, _, ht, .plus⟩ hsome
    · next ht => exact absurd ⟨_, _, _, ht, .minus⟩ hsome
    · exact ⟨_, rfl⟩

theorem read_of_accepted (haccepted : Accepted t.trim east) : read t = .ok east := by
  rcases haccepted with ⟨hutc, rfl⟩ | ⟨sign, h, m, hsigned, hfits, rfl, hrange⟩
  · exact read_of_utc hutc
  · obtain ⟨hh, hm⟩ := holds_of_fits hfits
    rw [read_of_signed hsigned hh hm, seconds_of_fits hfits]
    exact if_pos hrange

theorem exists_overflow_of_read (hoverflows : Overflows t.trim) :
    ∃ o, read t = .error (.overflow o) := by
  obtain ⟨sign, h, m, hsigned, hh, hm, hfits⟩ := hoverflows
  obtain ⟨o, hseconds⟩ := exists_overflow hfits
  rw [read_of_signed hsigned hh hm, hseconds]
  exact ⟨o, rfl⟩

/-- A text is read, overflows or is at fault. -/
theorem read_cases (t : Text) : (∃ east, Accepted t.trim east ∧ read t = .ok east) ∨
    (Overflows t.trim ∧ ∃ o, read t = .error (.overflow o)) ∨
    ∃ fault, read t = .error (.fault fault) := by
  by_cases hutc : Utc t.trim
  · exact .inl ⟨0, .inl ⟨hutc, rfl⟩, read_of_utc hutc⟩
  by_cases hsome : ∃ sign h m, Signed Numeral t.trim sign h m ∧ Span.int32.holds h = true ∧
      Span.int32.holds m = true
  · obtain ⟨sign, h, m, hsigned, hh, hm⟩ := hsome
    by_cases hfits : Fits sign h m
    · by_cases hrange : -86400 < sign * total h m ∧ sign * total h m < 86400
      · have haccepted : Accepted t.trim (sign * total h m) :=
          .inr ⟨sign, h, m, hsigned, hfits, rfl, hrange⟩
        exact .inl ⟨_, haccepted, read_of_accepted haccepted⟩
      · right; right
        rw [read_of_signed hsigned hh hm, seconds_of_fits hfits]
        exact ⟨_, if_neg hrange⟩
    · have hoverflows : Overflows t.trim := ⟨sign, h, m, hsigned, hh, hm, hfits⟩
      exact .inr (.inl ⟨hoverflows, exists_overflow_of_read hoverflows⟩)
  · right; right
    refine exists_fault_of_read hutc ?_
    intro sign h m hsigned hholds
    exact hsome ⟨sign, h, m, hsigned, hholds⟩

theorem read_eq_ok_iff : read t = .ok east ↔ Accepted t.trim east := by
  refine ⟨?_, read_of_accepted⟩
  intro hread
  rcases read_cases t with ⟨east', haccepted, hread'⟩ | ⟨-, o, hread'⟩ | ⟨fault, hread'⟩
  · rw [hread] at hread'
    cases hread'
    exact haccepted
  · rw [hread] at hread'
    cases hread'
  · rw [hread] at hread'
    cases hread'

theorem read_eq_overflow_iff : (∃ o, read t = .error (.overflow o)) ↔ Overflows t.trim := by
  refine ⟨?_, exists_overflow_of_read⟩
  rintro ⟨o, hread⟩
  rcases read_cases t with ⟨east, -, hread'⟩ | ⟨hoverflows, -⟩ | ⟨fault, hread'⟩
  · rw [hread] at hread'
    cases hread'
  · exact hoverflows
  · rw [hread] at hread'
    cases hread'

/-- Whatever is the notation of an offset is read as that offset, and of the plain texts no other
one is read. In full, a text is read exactly if its hours and its minutes, each with or without a
sign of its own, stay within 32 bits on their way to less than a day, and it overflows exactly if
they are integers of 32 bits and leave these on the way. Every other text is at fault. -/
theorem read_notation (t : Text) :
    (∀ east, Written t.trim east → read t = .ok east) ∧
    (Plain t.trim → ∀ east, read t = .ok east ↔ Written t.trim east) ∧
    (∀ east, read t = .ok east ↔ Accepted t.trim east) ∧
    ((∃ o, read t = .error (.overflow o)) ↔ Overflows t.trim) ∧
    ((∃ fault, read t = .error (.fault fault)) ↔
      (∀ east, ¬Accepted t.trim east) ∧ ¬Overflows t.trim) := by
  have hwritten (east : Int) (h : Written t.trim east) : read t = .ok east :=
    read_of_accepted h.accepted
  refine ⟨hwritten, ?_, fun east => read_eq_ok_iff, read_eq_overflow_iff, ?_⟩
  · intro hplain east
    exact ⟨fun hread => (read_eq_ok_iff.1 hread).written hplain, hwritten east⟩
  · constructor
    · rintro ⟨fault, hread⟩
      refine ⟨fun east haccepted => ?_, fun hoverflows => ?_⟩
      · rw [read_of_accepted haccepted] at hread
        cases hread
      · obtain ⟨o, hread'⟩ := exists_overflow_of_read hoverflows
        rw [hread'] at hread
        cases hread
    · rintro ⟨haccepted, hoverflows⟩
      rcases read_cases t with ⟨east, h, -⟩ | ⟨h, -⟩ | hfault
      · exact absurd h (haccepted east)
      · exact absurd h hoverflows
      · exact hfault

/-- Hours and minutes behind a minus sign are read. -/
theorem read_notation_westOfUtc :
    Written "-05:30".toList (-19800) ∧ Plain "-05:30".toList ∧
      read " -05:30\n".toList = .ok (-19800) ∧
      (read " -05:30\n".toList = .ok (-19800) ↔ Written "-05:30".toList (-19800)) := by
  have ht : Text.trim " -05:30\n".toList = "-05:30".toList := by decide +kernel
  have hhours : Digits "05".toList 5 :=
    ⟨by decide, forall_mem_of_all (by decide +kernel), by decide +kernel⟩
  have hminutes : Digits "30".toList 30 :=
    ⟨by decide, forall_mem_of_all (by decide +kernel), by decide +kernel⟩
  have hsigned : Signed Digits "-05:30".toList (-1) 5 30 := .minutes .minus hhours hminutes
  have hwritten : Written "-05:30".toList (-19800) :=
    .inr ⟨-1, 5, 30, hsigned, by decide, by decide, by decide⟩
  have hplain : Plain "-05:30".toList := by
    refine ⟨forall_mem_of_all (by decide +kernel), ?_⟩
    intro sign h m hsigned
    obtain ⟨c, unsigned, ht, -, -, hdigits⟩ := signed_digits_iff.1 hsigned
    cases ht
    rw [hdigits.2.2]
    decide +kernel
  obtain ⟨hread, hplainread, -⟩ := read_notation " -05:30\n".toList
  rw [ht] at hread hplainread
  exact ⟨hwritten, hplain, hread _ hwritten, hplainread hplain _⟩

/-- A second sign turns five hours and a half into half an hour less five hours, minutes beyond an
hour are read, and many hours overflow. None of the three texts is the notation of an offset. -/
theorem read_beyond_notation :
    read "+-05:30".toList = .ok (-16200) ∧ (∀ east, ¬Written "+-05:30".toList east) ∧
      read "+05:75".toList = .ok 22500 ∧ (∀ east, ¬Written "+05:75".toList east) ∧
      read "+99999999".toList = .error (.overflow .multiply) ∧
      ∀ east, ¬Written "+99999999".toList east := by
  refine ⟨by decide +kernel, ?_, by decide +kernel, ?_, by decide +kernel, ?_⟩
  · rintro east (⟨hutc, -⟩ | ⟨sign, h, m, hsigned, -⟩)
    · exact Sign.plus.not_utc _ hutc
    · obtain ⟨c, unsigned, ht, -, hdigits, -⟩ := signed_digits_iff.1 hsigned
      cases ht
      exact hdigits.not_mem (x := '-') (by decide) (by decide +kernel)
  · rintro east (⟨hutc, -⟩ | ⟨sign, h, m, hsigned, hm, -⟩)
    · exact Sign.plus.not_utc _ hutc
    · obtain ⟨c, unsigned, ht, -, -, hdigits⟩ := signed_digits_iff.1 hsigned
      cases ht
      rw [hdigits.2.2] at hm
      exact absurd hm (by decide +kernel)
  · rintro east (⟨hutc, -⟩ | ⟨sign, h, m, hsigned, -, htotal, -⟩)
    · exact Sign.plus.not_utc _ hutc
    · obtain ⟨-, hm⟩ := hsigned.nonneg
      obtain ⟨c, unsigned, ht, -, hdigits, -⟩ := signed_digits_iff.1 hsigned
      cases ht
      have hh : h = 99999999 := hdigits.2.2.trans (by decide +kernel)
      rw [total] at htotal
      omega

end Offset
end ReplayLog
