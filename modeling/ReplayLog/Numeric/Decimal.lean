import ReplayLog.Numeric.Binary64
import ReplayLog.Numeric.Integer

/-! # Decimal numbers as text

A decimal is digits with at most one point among or beside them and an optional exponent; the words
for infinity and for no number at all count as decimals too. Its value is first taken exactly and
then rounded once to binary floating point. -/
namespace ReplayLog

/-- The exact value `digits * 10 ^ exponent`, or one of the words. -/
inductive Decimal
  | exact (negative : Bool) (digits : Nat) (exponent : Int)
  | infinite (negative : Bool)
  | undefined
  deriving DecidableEq, Repr

/-- Why a text is no decimal. -/
inductive DecimalFault
  | empty
  | invalid
  deriving DecidableEq, Repr

def DecimalFault.message : DecimalFault → String
  | .empty => "cannot parse float from empty string"
  | .invalid => "invalid float literal"

namespace Decimal

/-- Splits an optional sign from a text; the sign is `true` for minus. -/
def splitSign : Text → Bool × Text
  | '-' :: t => (true, t)
  | '+' :: t => (false, t)
  | t => (false, t)

/-- The exponent behind the digits: nothing at all, or its mark, an optional sign and digits. -/
def readExponent? : Text → Option Int
  | [] => some 0
  | c :: t =>
    let (negative, digits) := splitSign t
    if (c == 'e' || c == 'E') && !digits.isEmpty && digits.all Char.isDigit then
      let n : Int := digitsValue digits
      some (if negative then -n else n)
    else none

/-- Digits, an optional point with more digits, and the exponent; one digit is needed at least. -/
def readUnsigned? (negative : Bool) (t : Text) : Option Decimal :=
  let whole := t.takeWhile Char.isDigit
  let afterWhole := t.dropWhile Char.isDigit
  let behindPoint := match afterWhole with
    | '.' :: r => r
    | _ => []
  let places := behindPoint.takeWhile Char.isDigit
  let afterDigits := match afterWhole with
    | '.' :: r => r.dropWhile Char.isDigit
    | r => r
  let digits := whole ++ places
  if digits.isEmpty then none
  else (readExponent? afterDigits).map fun e => exact negative (digitsValue digits) (e - places.length)

def read (t : Text) : Except DecimalFault Decimal :=
  if t.isEmpty then .error .empty
  else
    let (negative, unsigned) := splitSign t
    if unsigned.sameIgnoringCase "inf".toList || unsigned.sameIgnoringCase "infinity".toList then
      .ok (infinite negative)
    else if unsigned.sameIgnoringCase "nan".toList then .ok undefined
    else match readUnsigned? negative unsigned with
      | some d => .ok d
      | none => .error .invalid

/-- The magnitude nearest to `digits * 10 ^ exponent`. Values of at least `10 ^ 309` are beyond the
largest magnitude and values below `10 ^ -324` round to zero, so neither power is computed. -/
def nearest? (digits : Nat) (exponent : Int) : Option Magnitude :=
  let size : Int := (Nat.toDigits 10 digits).length + exponent
  if digits = 0 ∨ size ≤ -324 then some ⟨0, Magnitude.leastExponent⟩
  else if 309 < size then none
  else Magnitude.nearest? (digits * Nat.pow 10 exponent.toNat) (Nat.pow 10 (-exponent).toNat)

def toBinary64 : Decimal → Binary64
  | exact negative digits exponent => .ofRounded negative (nearest? digits exponent)
  | infinite negative => .infinite negative
  | undefined => .undefined

end Decimal

/-- The whole part of a floating-point value, held inside a span; 0 where it is undefined. -/
def Span.truncate (s : Span) : Binary64 → Int
  | .finite negative m =>
    let n : Int := m.truncate
    max s.low (min s.high (if negative then -n else n))
  | .infinite negative => if negative then s.low else s.high
  | .undefined => 0

/-- The magnitude of one thousand. -/
def Magnitude.thousand : Magnitude := ⟨8796093022208000, -43⟩

/-- The number of thousandths: one floating-point product with 1000, cut to its whole part. -/
def Decimal.thousandths (d : Decimal) : Int :=
  Span.int64.truncate (d.toBinary64.scale .thousand)

end ReplayLog
