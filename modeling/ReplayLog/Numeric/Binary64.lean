/-! # Binary floating point of 64 bits

A finite value is a sign and a magnitude `significand * 2 ^ exponent` with a significand below
`2 ^ 53` and an exponent from -1074 to 971. Every operation computes its exact result as a fraction
of natural numbers and rounds once, to the nearest magnitude and at a midpoint to the one with the
even significand. -/
namespace ReplayLog

/-- A magnitude `significand * 2 ^ exponent`. -/
structure Magnitude where
  significand : Nat
  exponent : Int
  deriving DecidableEq, Repr

namespace Magnitude

/-- The smallest exponent, that of the values next to zero. -/
def leastExponent : Int := -1074

def greatestExponent : Int := 971

/-- The smallest significand of 53 bits. -/
def leastNormal : Nat := 4503599627370496

def numerator (m : Magnitude) : Nat := m.significand * Nat.pow 2 m.exponent.toNat

/-- The denominator that goes with `numerator`. -/
def denominator (m : Magnitude) : Nat := Nat.pow 2 (-m.exponent).toNat

/-- The quotient rounded to the nearest natural number, at a midpoint to the even one. -/
def roundQuotient (num den : Nat) : Nat :=
  let q := num / den
  let r := num % den
  if 2 * r < den then q
  else if den < 2 * r then q + 1
  else q + q % 2

/-- The exponent at which the significand of a positive fraction has 53 bits, or the smallest one. -/
def exponentOf (num den : Nat) : Int :=
  let guess : Int := (num.log2 : Int) - den.log2 - 52
  let isTooHigh :=
    num * Nat.pow 2 (-guess).toNat < leastNormal * (den * Nat.pow 2 guess.toNat)
  max leastExponent (if isTooHigh then guess - 1 else guess)

/-- The magnitude nearest to a fraction, or nothing if it is beyond the largest one. -/
def nearest? (num den : Nat) : Option Magnitude :=
  if num = 0 then some ⟨0, leastExponent⟩
  else
    let e := exponentOf num den
    let significand := roundQuotient (num * Nat.pow 2 (-e).toNat) (den * Nat.pow 2 e.toNat)
    let m : Magnitude :=
      if significand = 2 * leastNormal then ⟨leastNormal, e + 1⟩ else ⟨significand, e⟩
    if m.exponent ≤ greatestExponent then some m else none

def multiply? (a b : Magnitude) : Option Magnitude :=
  nearest? (a.numerator * b.numerator) (a.denominator * b.denominator)

def divide? (a b : Magnitude) : Option Magnitude :=
  nearest? (a.numerator * b.denominator) (a.denominator * b.numerator)

/-- The whole part of a magnitude. -/
def truncate (m : Magnitude) : Nat := m.numerator / m.denominator

end Magnitude

/-- A floating-point value. -/
inductive Binary64
  | finite (negative : Bool) (magnitude : Magnitude)
  | infinite (negative : Bool)
  | undefined
  deriving DecidableEq, Repr

namespace Binary64

/-- The value of a sign and a rounded magnitude, infinite where rounding found none. -/
def ofRounded (negative : Bool) : Option Magnitude → Binary64
  | some m => finite negative m
  | none => infinite negative

def scale (factor : Magnitude) : Binary64 → Binary64
  | finite negative m => ofRounded negative (m.multiply? factor)
  | infinite negative => infinite negative
  | undefined => undefined

end Binary64
end ReplayLog
