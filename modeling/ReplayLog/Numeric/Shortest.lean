import ReplayLog.Numeric.Decimal

/-! # Shortest decimals

The shortest decimal of a floating-point value is the one with the fewest digits among those that
round to the value, and of two such the nearer one; of two equally near ones it is the even one. On
each grid of decimals only the two neighbours of the exact value can be nearest, so only they are
tried. -/
namespace ReplayLog.Shortest

/-- Whether the decimal rounds to the magnitude. -/
def readsBack (m : Magnitude) (digits : Nat) (exponent : Int) : Bool :=
  Decimal.nearest? digits exponent == some m

/-- The natural numbers next to `num / den * 10 ^ k`: the nearer one, which is even where both are
equally near, and the other one. -/
def neighbours (num den : Nat) (k : Int) : Nat × Nat :=
  let n := num * Nat.pow 10 k.toNat
  let d := den * Nat.pow 10 (-k).toNat
  let nearer := Magnitude.roundQuotient n d
  (nearer, if nearer = n / d then n / d + 1 else n / d)

/-- Power of ten of the first digit of a positive fraction. -/
def leadingPower (num den : Nat) : Int :=
  if den ≤ num then ((Nat.toDigits 10 (num / den)).length : Int) - 1
  else
    let k : Int := (Nat.toDigits 10 (den / num)).length
    if den ≤ num * Nat.pow 10 (k - 1).toNat then 1 - k else -k

/-- The digits and exponent of the nearest decimal with a number of digits that reads back. -/
def onGrid? (m : Magnitude) (power : Int) (count : Nat) : Option (Nat × Int) :=
  let exponent : Int := power - count + 1
  let (nearer, other) := neighbours m.numerator m.denominator (-exponent)
  if readsBack m nearer exponent then some (nearer, exponent)
  else if readsBack m other exponent then some (other, exponent)
  else none

/-- The shortest decimal of a positive magnitude; 17 digits always suffice. -/
def ofMagnitude (m : Magnitude) : Nat × Int :=
  let power := leadingPower m.numerator m.denominator
  ((List.range 17).findSome? fun n => onGrid? m power (n + 1)).getD (m.truncate, 0)

/-- The digits without the zeros at their end, and the exponent raised by as many. -/
def dropZeros (digits : Nat) (exponent : Int) : Text × Int :=
  let written := Nat.toDigits 10 digits
  let kept := (written.reverse.dropWhile (· == '0')).reverse
  (kept, exponent + (written.length - kept.length : Nat))

/-- How decimals are laid out: the first digit's powers of ten, from the lower one up to but not
including the upper one, at which a number is written without an exponent. -/
structure Layout where
  plainFrom : Int
  plainBelow : Int

/-- The exponent mark with the sign of a power of ten and its digits. -/
def exponentText (power : Int) : Text :=
  ['e', if power < 0 then '-' else '+'] ++ Nat.toDigits 10 power.natAbs

/-- Digits whose first one has the given power of ten, laid out. A plain number has at least one
digit on either side of its point; with an exponent a single digit has no point. -/
def layOut (l : Layout) (digits : Text) (power : Int) : Text :=
  if l.plainFrom ≤ power ∧ power < l.plainBelow then
    if power < 0 then
      '0' :: '.' :: List.replicate (-power - 1).toNat '0' ++ digits
    else
      let whole := power.toNat + 1
      let places := digits.drop whole
      (digits.take whole ++ List.replicate (whole - digits.length) '0') ++
        '.' :: (if places.isEmpty then ['0'] else places)
  else
    (match digits with
      | [] => []
      | [d] => [d]
      | d :: ds => d :: '.' :: ds) ++ exponentText power

def print (l : Layout) (negative : Bool) (m : Magnitude) : Text :=
  let unsigned :=
    if m.significand = 0 then "0.0".toList
    else
      let (digits, exponent) := ofMagnitude m
      let (kept, e) := dropZeros digits exponent
      layOut l kept (e + kept.length - 1)
  if negative then '-' :: unsigned else unsigned

end ReplayLog.Shortest
