import ReplayLog.Source.Basic

/-! # Spaces at the start of fields

Exports put spaces behind their commas, while a quoted field must begin with its quote. A sieve in
front of the table's grammar drops the spaces at the start of every field and keeps all other bytes.
It knows a field's end by commas and line feeds outside quotes only. -/
namespace ReplayLog.LeadingSpace

/-- Where in a field the sieve stands. -/
inductive State
  | fieldStart
  | bare
  | quoted
  | quoteInQuoted
  deriving DecidableEq, Repr

def space : UInt8 := 0x20

def quote : UInt8 := 0x22

def comma : UInt8 := 0x2C

/-- The byte that ends a row, as far as the sieve knows. -/
def newline : UInt8 := 0x0A

/-- The state behind a byte. -/
def State.next (s : State) (b : UInt8) : State :=
  match s with
  | fieldStart => if b == space then fieldStart else if b == quote then quoted else unquoted b
  | bare => unquoted b
  | quoted => if b == quote then quoteInQuoted else quoted
  | quoteInQuoted => if b == quote then quoted else unquoted b
where
  /-- The state behind a byte outside quotes. -/
  unquoted (b : UInt8) : State := if b == comma || b == newline then fieldStart else bare

/-- Whether a byte passes. -/
def State.keeps (s : State) (b : UInt8) : Bool := !(s == .fieldStart && b == space)

/-- The bytes that pass, and the state behind them all. -/
def sift (s : State) : List UInt8 → List UInt8 × State
  | [] => ([], s)
  | b :: bs =>
    let (kept, last) := sift (s.next b) bs
    (if s.keeps b then b :: kept else kept, last)

/-- Sifting goes on behind a cut in the state that the bytes before the cut left. -/
theorem sift_append (s : State) (as bs : List UInt8) :
    sift s (as ++ bs) = ((sift s as).1 ++ (sift (sift s as).2 bs).1, (sift (sift s as).2 bs).2) := by
  induction as generalizing s with
  | nil => simp [sift]
  | cons a as ih =>
    simp only [List.cons_append, sift, ih]
    by_cases h : s.keeps a <;> simp [h]

/-- A sieve in front of a source. -/
structure Sieve where
  source : BufferedSource
  state : State

namespace Sieve

def ofSource (b : BufferedSource) : Sieve := ⟨b, .fieldStart⟩

/-- One read of at most so many bytes. A read of nothing but dropped spaces is followed by another
one, so that no bytes mean the end. -/
def read (most : Nat) (s : Sieve) : Except String (List UInt8) × Sieve :=
  match _h : s.source.read most with
  | (.error reason, b) => (.error reason, { s with source := b })
  | (.ok [], b) => (.ok [], { s with source := b })
  | (.ok (x :: bs), b) =>
    match sift s.state (x :: bs) with
    | ([], state) => read most ⟨b, state⟩
    | (y :: kept, state) => (.ok (y :: kept), ⟨b, state⟩)
termination_by s.source.size
decreasing_by exact BufferedSource.size_of_read _h nofun

/-- Every read that gives something, or fails, leaves less to come. -/
theorem size_of_read {most : Nat} {s s' : Sieve} {r : Except String (List UInt8)}
    (h : s.read most = (r, s')) (hr : r ≠ .ok []) : s'.source.size < s.source.size := by
  fun_induction read most s with
  | case1 s reason b hb =>
    cases h
    exact BufferedSource.size_of_read hb nofun
  | case2 s b hb =>
    cases h
    exact absurd rfl hr
  | case3 s x bs b hb state hs ih =>
    exact Nat.lt_trans (ih h) (BufferedSource.size_of_read hb nofun)
  | case4 s x bs b hb y kept state hs =>
    cases h
    exact BufferedSource.size_of_read hb nofun

/-- The reads of at most so many bytes up to the end, behind those (in reverse) taken before; and the
words of a failure that stopped them. -/
def drainFrom (most : Nat) (taken : List (List UInt8)) (s : Sieve) :
    List (List UInt8) × Option String :=
  match _h : s.read most with
  | (.error reason, _) => (taken.reverse, some reason)
  | (.ok [], _) => (taken.reverse, none)
  | (.ok (x :: bs), s) => drainFrom most ((x :: bs) :: taken) s
termination_by s.source.size
decreasing_by exact size_of_read _h nofun

/-- The bytes that pass in reads of at most so many, and the words of a failure that stopped them. -/
def drain (most : Nat) (s : Sieve) : List (List UInt8) × Option String := s.drainFrom most []

end Sieve
end ReplayLog.LeadingSpace
