import ReplayLog.Entry.Fault
import ReplayLog.Source.Basic

/-! # Physical lines

A line ends with a line feed; a carriage return right before it belongs to the end. What follows the
last line feed is a line if it is not empty. A source that fails in the middle of a line loses the
line's beginning, and reading goes on behind the failure. -/
namespace ReplayLog

def lineFeed : UInt8 := 0x0A

/-- The byte that may stand before a line feed. -/
def carriageReturn : UInt8 := 0x0D

namespace BufferedSource

/-- Takes bytes up to and with the next line feed, or to the end, behind the bytes (in reverse)
taken for the line before. -/
def readLineFrom (taken : List UInt8) (b : BufferedSource) :
    Except String (List UInt8) × BufferedSource :=
  match _h : b.fill with
  | (.error reason, b) => (.error reason, b)
  | (.ok [], b) => (.ok taken.reverse, b)
  | (.ok (x :: bs), b) =>
    let before := (x :: bs).takeWhile (· != lineFeed)
    match (x :: bs).dropWhile (· != lineFeed) with
    | [] => readLineFrom (before.reverse ++ taken) { b with held := [] }
    | _ :: rest => (.ok (taken.reverse ++ before ++ [lineFeed]), { b with held := rest })
termination_by b.size
decreasing_by
  obtain ⟨-, h2, h3⟩ := bytes_of_fill _h
  rw [← h3, size, size, h2]
  simp

/-- Takes the bytes of one line with its end; no bytes mean the end of the source. -/
def readLine (b : BufferedSource) : Except String (List UInt8) × BufferedSource := b.readLineFrom []

theorem size_readLineFrom_le {taken : List UInt8} {b b' : BufferedSource}
    {r : Except String (List UInt8)} (h : b.readLineFrom taken = (r, b')) : b'.size ≤ b.size := by
  fun_induction readLineFrom taken b with
  | case1 taken b reason b1 hf =>
    cases h
    exact Nat.le_of_lt (size_of_fill_error hf)
  | case2 taken b b1 hf =>
    cases h
    exact Nat.le_of_eq (bytes_of_fill hf).2.2
  | case3 taken b x bs b1 hf before hd ih =>
    obtain ⟨-, h2, h3⟩ := bytes_of_fill hf
    refine Nat.le_trans (ih h) ?_
    rw [← h3, size, size, h2]
    simp
  | case4 taken b x bs b1 hf before y rest hd =>
    obtain ⟨-, h2, h3⟩ := bytes_of_fill hf
    have hl : (y :: rest).length ≤ (x :: bs).length := hd ▸ (List.dropWhile_sublist _).length_le
    cases h
    rw [← h3, size, size, h2]
    simp only [List.length_cons] at hl ⊢
    omega

/-- Reading a line leaves less to come, unless the source had ended. -/
theorem size_of_readLine {b b' : BufferedSource} {r : Except String (List UInt8)}
    (h : b.readLine = (r, b')) (hr : r ≠ .ok []) : b'.size < b.size := by
  unfold readLine readLineFrom at h
  split at h
  · next hf =>
    cases h
    exact size_of_fill_error hf
  · cases h
    exact absurd rfl hr
  · next x bs b1 hf =>
    obtain ⟨-, h2, h3⟩ := bytes_of_fill hf
    dsimp only at h
    split at h
    · refine Nat.lt_of_le_of_lt (size_readLineFrom_le h) ?_
      rw [← h3, size, size, h2]
      simp
    · next y rest hd =>
      have hl : (y :: rest).length ≤ (x :: bs).length := hd ▸ (List.dropWhile_sublist _).length_le
      cases h
      rw [← h3, size, size, h2]
      simp only [List.length_cons] at hl ⊢
      omega

/-- The bytes of a line without its end. -/
def withoutEnd (line : List UInt8) : List UInt8 :=
  match line.reverse with
  | l :: before =>
    if l == lineFeed then
      match before with
      | c :: rest => if c == carriageReturn then rest.reverse else before.reverse
      | [] => []
    else line
  | [] => []

def decodeLine (e : Encoding) (line : List UInt8) : Except ReadFault Text :=
  (e.decode (withoutEnd line)).mapError .notUtf8

/-- The lines of a source behind those (in reverse) already read. -/
def linesFrom (e : Encoding) (seen : List (Except ReadFault Text)) (b : BufferedSource) :
    List (Except ReadFault Text) :=
  match _h : b.readLine with
  | (.error reason, b) => linesFrom e (.error (.refused reason) :: seen) b
  | (.ok [], _) => seen.reverse
  | (.ok (x :: bs), b) => linesFrom e (decodeLine e (x :: bs) :: seen) b
termination_by b.size
decreasing_by
  · exact size_of_readLine _h nofun
  · exact size_of_readLine _h nofun

/-- The lines of a source, each of them read or failed. -/
def lines (e : Encoding) (b : BufferedSource) : List (Except ReadFault Text) := b.linesFrom e []

end BufferedSource
end ReplayLog
