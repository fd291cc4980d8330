import ReplayLog.Numeric.Shortest

/-! # JSON numbers

A number without point and exponent that fits into 64 bits is an integer; every other number is a
binary64. Its digits are gathered into one significand of at most 64 bits, which is rounded and then
multiplied or divided by a rounded power of ten, so a value of many digits can differ from the
nearest binary64 in its last place. -/
namespace ReplayLog.Json

/-- Why a text is no JSON value. -/
inductive Fault
  /-- The text ends where more was needed. -/
  | endOfText
  /-- Any other fault. -/
  | malformed
  deriving DecidableEq, Repr

def Fault.message : Fault → String
  | .endOfText => "eof"
  | .malformed => "syntax"

/-- The value of a number. -/
inductive Number
  | integer (n : Int)
  | binary (negative : Bool) (magnitude : Magnitude)
  deriving DecidableEq, Repr

namespace Number

/-- Numbers from `10 ^ -5` up to but not including `10 ^ 16` are written without an exponent. -/
def layout : Shortest.Layout := ⟨-5, 16⟩

def print : Number → Text
  | integer n => Integer.print n
  | binary negative m => Shortest.print layout negative m

/-- The parts of a written number. -/
structure Written where
  negative : Bool
  whole : Text
  /-- The digits behind the point, if there is a point. -/
  places : Option Text
  /-- The exponent, if there is one: whether it is negative, and its digits. -/
  exponent : Option (Bool × Text)

/-- A run of digits that must not be empty, and what follows it. -/
def someDigits (t : Text) : Except Fault (Text × Text) :=
  match t with
  | [] => .error .endOfText
  | c :: _ =>
    if c.isDigit then .ok (t.takeWhile Char.isDigit, t.dropWhile Char.isDigit)
    else .error .malformed

/-- The digits before the point; a zero stands alone. -/
def scanWhole (t : Text) : Except Fault (Text × Text) := do
  let (whole, rest) ← someDigits t
  if whole.head? == some '0' && whole != ['0'] then throw .malformed
  return (whole, rest)

/-- The digits behind the point, if there is one. -/
def scanPlaces : Text → Except Fault (Option Text × Text)
  | '.' :: t => do
    let (places, rest) ← someDigits t
    return (some places, rest)
  | t => .ok (none, t)

/-- The exponent, if there is one. -/
def scanExponent : Text → Except Fault (Option (Bool × Text) × Text)
  | [] => .ok (none, [])
  | c :: t =>
    if c == 'e' || c == 'E' then do
      let (negative, unsigned) := Decimal.splitSign t
      let (digits, rest) ← someDigits unsigned
      return (some (negative, digits), rest)
    else .ok (none, c :: t)

/-- Splits a minus sign from a text; a plus sign does not count. -/
def splitMinus : Text → Bool × Text
  | '-' :: t => (true, t)
  | t => (false, t)

/-- The parts of the number at the start of a text, and what follows it. -/
def scan (t : Text) : Except Fault (Written × Text) := do
  let (whole, behindWhole) ← scanWhole (splitMinus t).2
  let (places, behindPlaces) ← scanPlaces behindWhole
  let (exponent, rest) ← scanExponent behindPlaces
  return (⟨(splitMinus t).1, whole, places, exponent⟩, rest)

theorem length_lt_of_someDigits {t rest digits : Text} (h : someDigits t = .ok (digits, rest)) :
    rest.length < t.length := by
  unfold someDigits at h
  split at h
  · cases h
  · next c t =>
    split at h
    · next hc =>
      cases h
      simpa [List.dropWhile_cons, hc] using
        Nat.lt_succ_of_le (t.dropWhile_sublist Char.isDigit).length_le
    · cases h

theorem length_lt_of_scanWhole {t rest whole : Text} (h : scanWhole t = .ok (whole, rest)) :
    rest.length < t.length := by
  unfold scanWhole at h
  cases hd : someDigits t with
  | error e => simp [hd, bind, Except.bind] at h
  | ok p =>
    simp only [hd, bind, Except.bind] at h
    split at h <;> cases h
    exact length_lt_of_someDigits hd

theorem length_le_of_scanPlaces {t rest : Text} {places : Option Text}
    (h : scanPlaces t = .ok (places, rest)) : rest.length ≤ t.length := by
  unfold scanPlaces at h
  split at h
  · next t =>
    cases hd : someDigits t with
    | error e => simp [hd, bind, Except.bind] at h
    | ok p =>
      simp only [hd, bind, Except.bind] at h
      cases h
      exact Nat.le_succ_of_le (Nat.le_of_lt (length_lt_of_someDigits hd))
  · cases h
    exact Nat.le_refl _

theorem length_splitSign_le (t : Text) : (Decimal.splitSign t).2.length ≤ t.length := by
  unfold Decimal.splitSign
  split <;> simp

theorem length_le_of_scanExponent {t rest : Text} {e : Option (Bool × Text)}
    (h : scanExponent t = .ok (e, rest)) : rest.length ≤ t.length := by
  unfold scanExponent at h
  split at h
  · cases h
    exact Nat.le_refl _
  · next c t =>
    split at h
    · cases hd : someDigits (Decimal.splitSign t).2 with
      | error e => simp [hd, bind, Except.bind] at h
      | ok p =>
        simp only [hd, bind, Except.bind] at h
        cases h
        exact Nat.le_succ_of_le
          (Nat.le_trans (Nat.le_of_lt (length_lt_of_someDigits hd)) (length_splitSign_le t))
    · cases h
      exact Nat.le_refl _

theorem length_splitMinus_le (t : Text) : (splitMinus t).2.length ≤ t.length := by
  unfold splitMinus
  split <;> simp

/-- A scanned number takes one character at least. -/
theorem length_lt_of_scan {t rest : Text} {w : Written} (h : scan t = .ok (w, rest)) :
    rest.length < t.length := by
  unfold scan at h
  cases hw : scanWhole (splitMinus t).2 with
  | error e => simp [hw, bind, Except.bind] at h
  | ok whole =>
    cases hp : scanPlaces whole.2 with
    | error e => simp [hw, hp, bind, Except.bind] at h
    | ok places =>
      cases he : scanExponent places.2 with
      | error e => simp [hw, hp, he, bind, Except.bind] at h
      | ok exponent =>
        have := length_lt_of_scanWhole hw
        have := length_le_of_scanPlaces hp
        have := length_le_of_scanExponent he
        have := length_splitMinus_le t
        simp only [hw, hp, he, bind, Except.bind] at h
        cases h
        omega

/-- A significand of 64 bits while digits are gathered, and how many digits went by. -/
structure Gathered where
  significand : Nat
  /-- Digits appended to the significand. -/
  taken : Nat
  /-- Digits left out, from the first one on that did not fit. -/
  dropped : Nat

/-- Appends a digit unless it, or one before it, does not fit. -/
def Gathered.push (g : Gathered) (c : Char) : Gathered :=
  let next := g.significand * 10 + digitValue c
  if g.dropped = 0 ∧ Span.nat64.holds next then ⟨next, g.taken + 1, 0⟩
  else { g with dropped := g.dropped + 1 }

def gather (significand : Nat) (digits : Text) : Gathered :=
  digits.foldl Gathered.push ⟨significand, 0, 0⟩

/-- The rounded power of ten. -/
def powerOfTen? (n : Nat) : Option Magnitude := Magnitude.nearest? (Nat.pow 10 n) 1

/-- Powers of ten up to this one are rounded as one factor. -/
def greatestPower : Nat := 308

/-- Divides by one rounded power of ten. -/
def divideOnce? (m : Magnitude) (n : Nat) : Option Magnitude := (powerOfTen? n).bind m.divide?

/-- Divides a significand of 64 bits by a power of ten in one or two factors. It has at most twenty
digits, so beyond two factors nothing of it is left. -/
def divideByPower? (m : Magnitude) (n : Nat) : Option Magnitude :=
  if n ≤ greatestPower then divideOnce? m n
  else if n ≤ 2 * greatestPower then
    (divideOnce? m greatestPower).bind (divideOnce? · (n - greatestPower))
  else some ⟨0, Magnitude.leastExponent⟩

/-- The rounded significand times a power of ten, unless that is beyond the largest magnitude. -/
def scaled? (significand : Nat) (exponent : Int) : Option Magnitude := do
  let m ← Magnitude.nearest? significand 1
  if exponent < 0 then divideByPower? m exponent.natAbs
  else if exponent ≤ greatestPower then (← powerOfTen? exponent.toNat).multiply? m
  else if significand = 0 then some m
  else none

/-- The largest exponent that is taken at its value; a larger one means zero or no value. -/
def exponentLimit : Nat := 2147483647

/-- The magnitude of a written number from its significand and the power of ten of its last digit. -/
def magnitude? (significand : Nat) (power : Int) : Option (Bool × Text) → Option Magnitude
  | none => scaled? significand power
  | some (negative, digits) =>
    let e := digitsValue digits
    if e ≤ exponentLimit then scaled? significand (power + if negative then -(e : Int) else e)
    else if significand = 0 || negative then some ⟨0, Magnitude.leastExponent⟩
    else none

def value (w : Written) : Except Fault Number :=
  let whole := gather 0 w.whole
  let places := gather whole.significand (w.places.getD [])
  let isInteger := w.places.isNone && w.exponent.isNone && whole.dropped == 0
  if isInteger && !w.negative then .ok (integer whole.significand)
  else if isInteger && 0 < whole.significand && Span.int64.holds (-whole.significand) then
    .ok (integer (-whole.significand))
  else
    match magnitude? places.significand (whole.dropped - places.taken) w.exponent with
    | some m => .ok (binary w.negative m)
    | none => .error .malformed

end Number
end ReplayLog.Json
