import Mathlib.Algebra.Ring.Nat
import Mathlib.Data.List.Basic
import ReplayLog.Numeric.Integer
import ReplayLog.Text.DecimalDigit

/-! # Printed numbers

Numbers are printed in as many digits as they need, or padded with zeros to a width. Either way the
digits are read back as the number. -/
namespace ReplayLog

theorem isDigit_digitChar {n : Nat} (h : n < 10) : (Nat.digitChar n).isDigit = true := by
  rw [Nat.isDigit_digitChar, decide_eq_true h]

theorem digitValue_digitChar {n : Nat} (h : n < 10) : digitValue (Nat.digitChar n) = n :=
  Nat.toNat_digitChar_sub_48_of_lt_ten h

theorem ne_of_isDigit {c x : Char} (hc : c.isDigit = true) (hx : x.isDigit = false) : c ≠ x := by
  rintro rfl
  rw [hc] at hx
  cases hx

theorem Span.holds_iff {s : Span} {n : Int} : s.holds n = true ↔ s.low ≤ n ∧ n ≤ s.high := by
  rw [holds, Bool.and_eq_true, decide_eq_true_eq, decide_eq_true_eq]

theorem digitsValue_concat (digits : Text) (c : Char) :
    digitsValue (digits ++ [c]) = digitsValue digits * 10 + digitValue c := by
  rw [digitsValue, List.foldl_append]
  rfl

theorem digitsValue_rightpad (digits : Text) (width : Nat) :
    digitsValue (digits.rightpad width '0') = digitsValue digits * 10 ^ (width - digits.length) := by
  rw [List.rightpad]
  induction width - digits.length with
  | zero => rw [List.replicate_zero, List.append_nil, Nat.pow_zero, Nat.mul_one]
  | succ n ih =>
    have hzero : digitValue '0' = 0 := rfl
    rw [List.replicate_succ', ← List.append_assoc, digitsValue_concat, ih, hzero, Nat.pow_succ,
      Nat.mul_assoc, Nat.add_zero]

theorem digitsValue_toDigits (n : Nat) : digitsValue (Nat.toDigits 10 n) = n := by
  have hfold : ∀ (digits : Text) (value : Nat),
      digits.foldl (fun n c => n * 10 + digitValue c) value = Nat.ofDigitChars 10 digits value := by
    intro digits value
    rw [Nat.ofDigitChars_eq_foldl]
    congr 1
    funext n c
    rw [Nat.mul_comm]
    rfl
  rw [digitsValue, hfold, Nat.ofDigitChars_ten_toDigits]

/-- The last digits of a number, in the given width. -/
def padded : (width : Nat) → (n : Nat) → Text
  | 0, _ => []
  | width + 1, n => padded width (n / 10) ++ [Nat.digitChar (n % 10)]

@[simp] theorem length_padded (width n : Nat) : (padded width n).length = width := by
  induction width generalizing n with
  | zero => rfl
  | succ width ih => rw [padded, List.length_append, ih, List.length_singleton]

theorem isDigit_of_mem_padded {width n : Nat} {c : Char} (h : c ∈ padded width n) :
    c.isDigit = true := by
  induction width generalizing n with
  | zero => exact absurd h List.not_mem_nil
  | succ width ih =>
    rw [padded, List.mem_append, List.mem_singleton] at h
    rcases h with h | rfl
    · exact ih h
    · exact isDigit_digitChar (Nat.mod_lt _ (by omega))

theorem digitsValue_padded {width n : Nat} (h : n < 10 ^ width) :
    digitsValue (padded width n) = n := by
  induction width generalizing n with
  | zero =>
    have : n = 0 := by simpa using h
    rw [this]
    rfl
  | succ width ih =>
    have hn : n / 10 < 10 ^ width := by
      rw [Nat.pow_succ] at h
      omega
    rw [padded, digitsValue_concat, ih hn, digitValue_digitChar (Nat.mod_lt _ (by omega))]
    omega

namespace Integer

theorem foldl_digitValue_le (digits : Text) (value : Nat) :
    value ≤ digits.foldl (fun n c => n * 10 + digitValue c) value := by
  induction digits generalizing value with
  | nil => exact Nat.le_refl _
  | cons c digits ih =>
    have := ih (value * 10 + digitValue c)
    rw [List.foldl_cons]
    omega

/-- No digit is at fault if no number up to the last one leaves the span. -/
theorem foldlM_push {s : Span} {sign : Int} (excess : IntegerFault) {digits : Text} (value : Nat)
    (hdigits : ∀ c ∈ digits, c.isDigit = true)
    (hspan : ∀ k : Nat, k ≤ digits.foldl (fun n c => n * 10 + digitValue c) value →
      s.holds (sign * k) = true) :
    digits.foldlM (push s sign excess) (sign * value) =
      .ok (sign * (digits.foldl (fun n c => n * 10 + digitValue c) value : Nat)) := by
  induction digits generalizing value with
  | nil => rfl
  | cons c digits ih =>
    have hnext : sign * value * 10 + sign * digitValue c =
        sign * ((value * 10 + digitValue c : Nat) : Int) := by
      rw [Int.natCast_add, Int.natCast_mul, Int.mul_add, Int.mul_assoc]
      rfl
    have hpush : push s sign excess (sign * value) c =
        .ok (sign * ((value * 10 + digitValue c : Nat) : Int)) := by
      rw [push, if_pos (hdigits c List.mem_cons_self)]
      dsimp only
      rw [hnext, if_pos (hspan _ (foldl_digitValue_le digits _))]
    rw [List.foldlM_cons, hpush, List.foldl_cons]
    exact ih _ (fun c hc => hdigits c (List.mem_cons_of_mem _ hc)) hspan

theorem ofDigits_eq {s : Span} {sign : Int} (excess : IntegerFault) {digits : Text}
    (hne : digits ≠ []) (hdigits : ∀ c ∈ digits, c.isDigit = true)
    (hspan : ∀ k : Nat, k ≤ digitsValue digits → s.holds (sign * k) = true) :
    ofDigits s sign excess digits = .ok (sign * digitsValue digits) := by
  have hfold := foldlM_push excess 0 hdigits hspan
  rw [Int.natCast_zero, Int.mul_zero] at hfold
  rw [ofDigits, if_neg (by simpa using hne)]
  exact hfold

theorem isDigit_of_mem_toDigits {n : Nat} {c : Char} (h : c ∈ Nat.toDigits 10 n) :
    c.isDigit = true :=
  Nat.isDigit_of_mem_toDigits (by omega) (by omega) h

theorem eq_or_isDigit_of_mem_print {n : Int} {c : Char} (h : c ∈ print n) :
    c = '-' ∨ c.isDigit = true := by
  rw [print] at h
  split at h
  · rcases List.mem_cons.1 h with hc | hc
    · exact .inl hc
    · exact .inr (isDigit_of_mem_toDigits hc)
  · exact .inr (isDigit_of_mem_toDigits h)

/-- A printed integer is read back. -/
theorem read_print {n : Int} (h : Span.int64.holds n = true) : read .int64 (print n) = .ok n := by
  rw [Span.holds_iff, Span.int64] at h
  have hdigits : ∀ c ∈ Nat.toDigits 10 n.natAbs, c.isDigit = true :=
    fun c => isDigit_of_mem_toDigits
  have hspan {sign : Int} (hsign : sign * n.natAbs = n) (hunit : sign = 1 ∨ sign = -1) (k : Nat)
      (hk : k ≤ digitsValue (Nat.toDigits 10 n.natAbs)) : Span.int64.holds (sign * k) = true := by
    rw [digitsValue_toDigits] at hk
    rw [Span.holds_iff, Span.int64]
    rcases hunit with rfl | rfl <;> dsimp only at h ⊢ <;> omega
  rw [print]
  split
  · next hneg =>
    have hsign : -1 * (n.natAbs : Int) = n := by omega
    rw [read, ofDigits_eq _ Nat.toDigits_ne_nil hdigits (hspan hsign (.inr rfl)),
      digitsValue_toDigits, hsign]
  · next hpos =>
    have hsign : 1 * (n.natAbs : Int) = n := by omega
    have hread := ofDigits_eq .tooLarge Nat.toDigits_ne_nil hdigits
      (hspan hsign (.inl rfl))
    rw [digitsValue_toDigits, hsign] at hread
    unfold read
    split
    · next hnil => exact absurd hnil Nat.toDigits_ne_nil
    · next digits hplus =>
      rw [hplus] at hdigits
      exact absurd rfl (ne_of_isDigit (x := '+') (hdigits _ List.mem_cons_self) (by decide))
    · next digits hminus =>
      rw [hminus] at hdigits
      exact absurd rfl (ne_of_isDigit (x := '-') (hdigits _ List.mem_cons_self) (by decide))
    · exact hread

end Integer
end ReplayLog
