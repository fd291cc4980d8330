import ReplayLog.Text.Basic

/-! # Reading UTF-8

The first octet of a sequence fixes how many continuation octets follow and the range of the first
of them, so that overlong forms, surrogates and code points past U+10FFFF fail at their second
octet. A strict reading stops at the first ill-formed sequence and says where it starts and how long
its longest well-formed beginning is. A lossy reading puts U+FFFD in the place of each such
beginning and goes on behind it. -/
namespace ReplayLog
namespace Utf8

/-- How the octets at hand begin. -/
inductive Sequence
  /-- One character, and the octets behind it. -/
  | scalar (c : Char) (rest : List UInt8)
  /-- A sequence that breaks off after some octets, and the octets behind those. -/
  | broken (length : Nat) (rest : List UInt8)
  /-- A sequence cut short by the end of the octets. -/
  | cutShort

/-- What a first octet announces: the number of continuation octets, the bounds of the first of
them and the bits that the first octet adds to the code point. -/
structure Lead where
  continuations : Nat
  low : UInt8
  high : UInt8
  bits : Nat

/-- What the octet announces, if it begins a sequence at all. -/
def lead? (b : UInt8) : Option Lead :=
  if b < 0x80 then some ⟨0, 0x80, 0xBF, b.toNat⟩
  else if b < 0xC2 then none
  else if b < 0xE0 then some ⟨1, 0x80, 0xBF, b.toNat - 0xC0⟩
  else if b < 0xF0 then
    some ⟨2, if b == 0xE0 then 0xA0 else 0x80, if b == 0xED then 0x9F else 0xBF, b.toNat - 0xE0⟩
  else if b < 0xF5 then
    some ⟨3, if b == 0xF0 then 0x90 else 0x80, if b == 0xF4 then 0x8F else 0xBF, b.toNat - 0xF0⟩
  else none

/-- Takes the continuation octets still missing, when some octets of the sequence were taken. -/
def continued : (missing : Nat) → (low high : UInt8) → (bits taken : Nat) → List UInt8 → Sequence
  | 0, _, _, bits, _, rest => .scalar (Char.ofNat bits) rest
  | _ + 1, _, _, _, _, [] => .cutShort
  | missing + 1, low, high, bits, taken, b :: rest =>
    if low ≤ b ∧ b ≤ high then
      continued missing 0x80 0xBF (bits * 64 + (b.toNat - 0x80)) (taken + 1) rest
    else .broken taken (b :: rest)

/-- How the octets begin when the first of them is given apart. -/
def sequence (b : UInt8) (rest : List UInt8) : Sequence :=
  match lead? b with
  | none => .broken 1 rest
  | some l => continued l.continuations l.low l.high l.bits 1 rest

/-- The octets behind the first sequence. -/
def Sequence.rest : Sequence → List UInt8
  | .scalar _ rest => rest
  | .broken _ rest => rest
  | .cutShort => []

theorem length_rest_continued_le (missing : Nat) (low high : UInt8) (bits taken : Nat)
    (bs : List UInt8) : (continued missing low high bits taken bs).rest.length ≤ bs.length := by
  fun_induction continued missing low high bits taken bs with
  | case1 => simp [Sequence.rest]
  | case2 => simp [Sequence.rest]
  | case3 missing low high bits taken b rest h ih => exact Nat.le_succ_of_le ih
  | case4 => simp [Sequence.rest]

/-- A sequence takes its first octet at least. -/
theorem length_rest_sequence_le (b : UInt8) (bs : List UInt8) :
    (sequence b bs).rest.length ≤ bs.length := by
  unfold sequence
  split
  · simp [Sequence.rest]
  · exact length_rest_continued_le ..

theorem length_lt_of_sequence {b : UInt8} {bs : List UInt8} {q : Sequence}
    (h : sequence b bs = q) : q.rest.length < (b :: bs).length :=
  Nat.lt_succ_of_le (h ▸ length_rest_sequence_le b bs)

/-- Where and how octets fail to be UTF-8. -/
inductive Fault
  /-- The longest well-formed beginning of the sequence at the index has the given length. -/
  | broken (length index : Nat)
  /-- The octets end inside the sequence at the index. -/
  | cutShort (index : Nat)
  deriving DecidableEq, Repr

def Fault.message : Fault → String
  | .broken length index => s!"invalid utf-8 sequence of {length} bytes from index {index}"
  | .cutShort index => s!"incomplete utf-8 byte sequence from index {index}"

/-- Strict reading from an index on, behind the characters (in reverse) read before it. -/
def decodeFrom (seen : Text) (index : Nat) (bs : List UInt8) : Except Fault Text :=
  match bs with
  | [] => .ok seen.reverse
  | b :: bs =>
    match _h : sequence b bs with
    | .scalar c rest => decodeFrom (c :: seen) (index + c.utf8Size) rest
    | .broken length _ => .error (.broken length index)
    | .cutShort => .error (.cutShort index)
termination_by bs.length
decreasing_by exact length_lt_of_sequence _h

/-- The text that the octets encode, or the first fault in them. -/
def decode (bs : List UInt8) : Except Fault Text := decodeFrom [] 0 bs

def replacement : Char := Char.ofNat 0xFFFD

/-- Lossy reading behind the characters (in reverse) read before. -/
def decodeLossyFrom (seen : Text) (bs : List UInt8) : Text :=
  match bs with
  | [] => seen.reverse
  | b :: bs =>
    match _h : sequence b bs with
    | .scalar c rest => decodeLossyFrom (c :: seen) rest
    | .broken _ rest => decodeLossyFrom (replacement :: seen) rest
    | .cutShort => (replacement :: seen).reverse
termination_by bs.length
decreasing_by
  · exact length_lt_of_sequence _h
  · exact length_lt_of_sequence _h

/-- The text of the octets, with U+FFFD in the place of each ill-formed beginning. -/
def decodeLossy (bs : List UInt8) : Text := decodeLossyFrom [] bs

end Utf8

/-- How the octets of a source become text. -/
inductive Encoding
  /-- UTF-8; an ill-formed sequence is a fault. -/
  | strict
  /-- UTF-8; an ill-formed sequence reads as U+FFFD. -/
  | lossy
  deriving DecidableEq, Repr

def Encoding.decode : Encoding → List UInt8 → Except Utf8.Fault Text
  | .strict, bs => Utf8.decode bs
  | .lossy, bs => .ok (Utf8.decodeLossy bs)

end ReplayLog
