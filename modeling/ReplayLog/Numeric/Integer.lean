import ReplayLog.Text.Basic

/-! # Integers in a span

An integer is written with an optional sign and ASCII digits. It is read digit by digit, so of two
faults the one further left is reported, and at one character a foreign character comes before an
excess over the span. -/
namespace ReplayLog

/-- The integers from a lowest to a highest one. -/
structure Span where
  low : Int
  high : Int

namespace Span

/-- The integers of 64 bits with a sign. -/
def int64 : Span := ⟨-9223372036854775808, 9223372036854775807⟩

/-- The integers of 32 bits with a sign. -/
def int32 : Span := ⟨-2147483648, 2147483647⟩

/-- The integers of 64 bits without a sign. -/
def nat64 : Span := ⟨0, 18446744073709551615⟩

/-- Whether the integer lies in the span. -/
def holds (s : Span) (n : Int) : Bool := s.low ≤ n && n ≤ s.high

end Span

/-- Why a text is no integer of the span. -/
inductive IntegerFault
  | empty
  | invalidDigit
  | tooLarge
  | tooSmall
  deriving DecidableEq, Repr

def IntegerFault.message : IntegerFault → String
  | .empty => "cannot parse integer from empty string"
  | .invalidDigit => "invalid digit found in string"
  | .tooLarge => "number too large to fit in target type"
  | .tooSmall => "number too small to fit in target type"

def digitValue (c : Char) : Nat := c.toNat - 48

def digitsValue (digits : Text) : Nat := digits.foldl (fun n c => n * 10 + digitValue c) 0

namespace Integer

def push (s : Span) (sign : Int) (excess : IntegerFault) (value : Int) (c : Char) :
    Except IntegerFault Int :=
  if c.isDigit then
    let next := value * 10 + sign * digitValue c
    if s.holds next then .ok next else .error excess
  else .error .invalidDigit

def ofDigits (s : Span) (sign : Int) (excess : IntegerFault) (digits : Text) :
    Except IntegerFault Int :=
  if digits.isEmpty then .error .invalidDigit else digits.foldlM (push s sign excess) 0

def read (s : Span) : Text → Except IntegerFault Int
  | [] => .error .empty
  | '+' :: digits => ofDigits s 1 .tooLarge digits
  | '-' :: digits => ofDigits s (-1) .tooSmall digits
  | digits => ofDigits s 1 .tooLarge digits

def readUnsigned (s : Span) : Text → Except IntegerFault Int
  | '-' :: _ => .error .invalidDigit
  | t => read s t

/-- The decimal digits of an integer behind a minus sign where it is negative. -/
def print (n : Int) : Text :=
  if n < 0 then '-' :: Nat.toDigits 10 n.natAbs else Nat.toDigits 10 n.natAbs

end Integer

/-- An arithmetic step whose result left its span. -/
inductive Overflow
  | add
  | multiply
  deriving DecidableEq, Repr

def Overflow.message : Overflow → String
  | .add => "attempt to add with overflow"
  | .multiply => "attempt to multiply with overflow"

/-- How a computation stops early: by a fault of its own, or by an overflow, which stops the whole
program. -/
inductive Halt (ε : Type)
  | fault (e : ε)
  | overflow (o : Overflow)
  deriving DecidableEq, Repr

namespace Span

/-- The sum, if it stays in the span. -/
def add (s : Span) (a b : Int) : Except Overflow Int :=
  if s.holds (a + b) then .ok (a + b) else .error .add

/-- The product, if it stays in the span. -/
def multiply (s : Span) (a b : Int) : Except Overflow Int :=
  if s.holds (a * b) then .ok (a * b) else .error .multiply

end Span
end ReplayLog
