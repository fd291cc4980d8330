import Mathlib.Algebra.Order.Field.Power
import Mathlib.Algebra.Order.Round
import Mathlib.Data.Int.Log
import Mathlib.Data.Rat.Floor
import Mathlib.Tactic.FieldSimp
import Mathlib.Tactic.Linarith
import Mathlib.Tactic.NormNum
import Mathlib.Tactic.Positivity
import Mathlib.Tactic.Ring
import ReplayLog.Numeric.Binary64

/-! # Rounding to binary floating point

A magnitude is nearest to a number when no other number of 53 bits is nearer, and at a midpoint when
its significand is even. There is only one such value, and rounding a fraction finds it. It keeps
bounds that are numbers of 53 bits, and moves a number that is not too small by one part in `2 ^ 53`
at most. -/
namespace ReplayLog

/-- A number `significand * 2 ^ exponent` with a significand of 53 bits, or `2 ^ 53`, and an
exponent that is not too small. -/
def IsBinary (r : ℚ) : Prop :=
  ∃ (significand : Nat) (exponent : Int),
    significand ≤ 2 ^ 53 ∧ Magnitude.leastExponent ≤ exponent ∧ r = significand * 2 ^ exponent

namespace IsBinary

theorem nonneg {r : ℚ} (h : IsBinary r) : 0 ≤ r := by
  obtain ⟨s, e, -, -, rfl⟩ := h
  positivity

theorem natCast {n : Nat} (h : n ≤ 2 ^ 53) : IsBinary n :=
  ⟨n, 0, h, by decide, by simp⟩

theorem half {n : Nat} (h : n ≤ 2 ^ 53) : IsBinary (n / 2) :=
  ⟨n, -1, h, by decide, by rw [zpow_neg_one, div_eq_mul_inv]⟩

theorem two_zpow {e : Int} (h : Magnitude.leastExponent ≤ e) : IsBinary (2 ^ e) :=
  ⟨1, e, by norm_num, h, by simp⟩

/-- The least number above zero. -/
theorem eq_zero_or_le {r : ℚ} (h : IsBinary r) : r = 0 ∨ 2 ^ Magnitude.leastExponent ≤ r := by
  obtain ⟨s, e, -, he, rfl⟩ := h
  by_cases hs : s = 0
  · exact .inl (by simp [hs])
  · refine .inr ?_
    have hone : (1 : ℚ) ≤ s := by exact_mod_cast Nat.one_le_iff_ne_zero.2 hs
    calc (2 : ℚ) ^ Magnitude.leastExponent ≤ 2 ^ e := zpow_le_zpow_right₀ (by norm_num) he
      _ = 1 * 2 ^ e := (one_mul _).symm
      _ ≤ s * 2 ^ e := by gcongr

end IsBinary

/-- A power as the fraction that magnitudes are computed with. -/
theorem zpow_eq_div (b : ℚ) (e : Int) : b ^ e = b ^ e.toNat / b ^ (-e).toNat := by
  rcases Int.le_total 0 e with he | he
  · obtain ⟨n, rfl⟩ := Int.eq_ofNat_of_zero_le he
    simp
  · obtain ⟨n, hn⟩ := Int.eq_ofNat_of_zero_le (Int.neg_nonneg.2 he)
    obtain rfl : e = -n := by omega
    simp

/-- A multiple of a power of two is a multiple of every smaller one. -/
theorem mul_two_zpow (s : Nat) {e f : Int} (h : e ≤ f) :
    (s * 2 ^ f : ℚ) = (s * 2 ^ (f - e).toNat : Nat) * 2 ^ e := by
  obtain ⟨k, hk⟩ := Int.eq_ofNat_of_zero_le (sub_nonneg.2 h)
  obtain rfl : f = k + e := by omega
  rw [zpow_add₀ two_ne_zero, zpow_natCast, hk, Int.toNat_natCast]
  push_cast
  ring

namespace Magnitude

def value (m : Magnitude) : ℚ := m.significand * 2 ^ m.exponent

theorem value_eq_div (m : Magnitude) : m.value = m.numerator / m.denominator := by
  rw [value, zpow_eq_div, numerator, denominator, Nat.pow_eq, Nat.pow_eq]
  push_cast
  ring

theorem denominator_pos (m : Magnitude) : 0 < m.denominator := Nat.two_pow_pos _

theorem truncate_eq_floor (m : Magnitude) : (m.truncate : Int) = ⌊m.value⌋ := by
  rw [value_eq_div, Rat.floor_natCast_div_natCast, truncate]
  norm_cast

/-- The magnitude is the nearest one to a number, at a midpoint the one with an even significand. -/
structure Nearest (m : Magnitude) (x : ℚ) : Prop where
  significand_lt : m.significand < 2 ^ 53
  exponent_ge : leastExponent ≤ m.exponent
  le : ∀ r, IsBinary r → |m.value - x| ≤ |r - x|
  even : ∀ r, IsBinary r → r ≠ m.value → |r - x| = |m.value - x| → Even m.significand

/-- Zero is the nearest magnitude up to half the least one above it. -/
theorem nearest_zero {x : ℚ} (hx : 0 ≤ x) (h : x ≤ 2 ^ (leastExponent - 1)) :
    (⟨0, leastExponent⟩ : Magnitude).Nearest x := by
  have hvalue : (⟨0, leastExponent⟩ : Magnitude).value = 0 := by simp [value]
  refine ⟨by norm_num, le_rfl, ?_, ?_⟩
  · intro r hr
    rw [hvalue, zero_sub, abs_neg, abs_of_nonneg hx]
    rcases hr.eq_zero_or_le with rfl | hle
    · rw [zero_sub, abs_neg]
      exact le_abs_self x
    · rw [zpow_sub_one₀ two_ne_zero] at h
      exact le_trans (by linarith) (le_abs_self _)
  · intro r _ _ _
    exact Even.zero

namespace Nearest

variable {m m' : Magnitude} {x r : ℚ}

theorem binary (h : m.Nearest x) : IsBinary m.value :=
  ⟨m.significand, m.exponent, h.significand_lt.le, h.exponent_ge, rfl⟩

theorem le_value (h : m.Nearest x) (hr : IsBinary r) (hle : r ≤ x) : r ≤ m.value := by
  by_contra hlt
  have hnear := h.le r hr
  rw [abs_of_nonpos (by linarith), abs_of_nonpos (by linarith)] at hnear
  linarith

theorem value_le (h : m.Nearest x) (hr : IsBinary r) (hle : x ≤ r) : m.value ≤ r := by
  by_contra hlt
  have hnear := h.le r hr
  rw [abs_of_nonneg (by linarith), abs_of_nonneg (by linarith)] at hnear
  linarith

/-- A number is passed by no more than its distance to a number of 53 bits. -/
theorem value_le_add (h : m.Nearest x) (hr : IsBinary r) (hle : r ≤ x) :
    m.value ≤ x + (x - r) := by
  have hnear := (le_abs_self _).trans (h.le r hr)
  rw [abs_of_nonpos (by linarith)] at hnear
  linarith

/-- No number of 53 bits lies between two magnitudes that are nearest. -/
theorem value_le_of_lt (h : m.Nearest x) (h' : m'.Nearest x) (hr : IsBinary r)
    (hlt : m.value < r) : m'.value ≤ r := by
  by_contra hbetween
  have hleft := h.le r hr
  have hright := h'.le r hr
  rcases le_total r x with hle | hle
  · rw [abs_of_nonpos (by linarith), abs_of_nonpos (by linarith)] at hleft
    linarith
  · rw [abs_of_nonneg (by linarith), abs_of_nonneg (by linarith)] at hright
    linarith

/-- A number has one nearest magnitude: of two, both would be even multiples of a unit and next to
each other. -/
theorem value_unique (h : m.Nearest x) (h' : m'.Nearest x) : m.value = m'.value := by
  by_contra hne
  wlog hlt : m.value < m'.value generalizing m m'
  · exact this h' h (Ne.symm hne) (lt_of_le_of_ne (not_lt.1 hlt) (Ne.symm hne))
  have hsame : |m.value - x| = |m'.value - x| :=
    le_antisymm (h.le _ h'.binary) (h'.le _ h.binary)
  have heven := h.even _ h'.binary (Ne.symm hne) hsame.symm
  have heven' := h'.even _ h.binary hne hsame
  obtain ⟨n, n', e, he, hn, hn', hvalue, hvalue', hfits⟩ : ∃ (n n' : Nat) (e : Int),
      leastExponent ≤ e ∧ Even n ∧ Even n' ∧ m.value = n * 2 ^ e ∧ m'.value = n' * 2 ^ e ∧
        (n < n' → n < 2 ^ 53) := by
    rcases le_total m.exponent m'.exponent with hle | hle
    · exact ⟨_, _, m.exponent, h.exponent_ge, heven, heven'.mul_right _, rfl,
        mul_two_zpow _ hle, fun _ => h.significand_lt⟩
    · exact ⟨_, _, m'.exponent, h'.exponent_ge, heven.mul_right _, heven', mul_two_zpow _ hle,
        rfl, fun hlt => hlt.trans h'.significand_lt⟩
  have hunit : (0 : ℚ) < 2 ^ e := by positivity
  have hnn' : n < n' := by
    rw [hvalue, hvalue'] at hlt
    exact Nat.cast_lt.1 ((mul_lt_mul_iff_left₀ hunit).1 hlt)
  have hnext : IsBinary ((n + 1 : Nat) * 2 ^ e) := ⟨n + 1, e, hfits hnn', he, rfl⟩
  have hle := h.value_le_of_lt h' hnext (by
    rw [hvalue]
    gcongr
    exact n.lt_succ_self)
  rw [hvalue'] at hle
  have hle' : n' ≤ n + 1 := Nat.cast_le.1 ((mul_le_mul_iff_left₀ hunit).1 hle)
  obtain ⟨k, rfl⟩ := hn
  obtain ⟨k', rfl⟩ := hn'
  omega

/-- A number that is not too small moves by one part in `2 ^ 53` at most: the multiples of the unit
of its last bit are near enough. -/
theorem close (h : m.Nearest x) (hx : (2 : ℚ) ^ (-1022 : Int) ≤ x) :
    |m.value - x| ≤ x / 2 ^ 53 := by
  have hpos : 0 < x := lt_of_lt_of_le (by positivity) hx
  have hlog : -1022 ≤ Int.log 2 x := by
    have hx' : ((2 : Nat) : ℚ) ^ (-1022 : Int) ≤ x := by exact_mod_cast hx
    exact (Int.zpow_le_iff_le_log (by norm_num) hpos).1 hx'
  have hlow := Int.zpow_log_le_self (b := 2) (R := ℚ) (by norm_num) hpos
  have hhigh := Int.lt_zpow_succ_log_self (b := 2) (R := ℚ) (by norm_num) x
  obtain ⟨unit, hunit⟩ : ∃ unit : ℚ, unit = 2 ^ (Int.log 2 x - 52) := ⟨_, rfl⟩
  have hunit_pos : 0 < unit := hunit ▸ by positivity
  have hbit : unit * 2 ^ 52 ≤ x := by
    refine le_of_eq_of_le ?_ hlow
    rw [hunit, ← zpow_natCast, ← zpow_add₀ two_ne_zero]
    norm_num
  have hbits : x < unit * 2 ^ 53 := by
    refine lt_of_lt_of_eq hhigh ?_
    rw [hunit, ← zpow_natCast, ← zpow_add₀ two_ne_zero]
    congr 1
    norm_num
    ring
  have hround := abs_le.1 (abs_sub_round (x / unit))
  have hscaled : x / unit < 2 ^ 53 := (div_lt_iff₀' hunit_pos).2 hbits
  have hnonneg : 0 ≤ round (x / unit) := by
    rw [round_eq]
    positivity
  have hle : round (x / unit) ≤ 2 ^ 53 := by
    have hlt : ((round (x / unit) : Int) : ℚ) < ((2 ^ 53 + 1 : Int) : ℚ) := by
      push_cast
      linarith [hround.1]
    have := Int.cast_lt.1 hlt
    omega
  have hbinary : IsBinary (round (x / unit) * unit) := by
    refine ⟨(round (x / unit)).toNat, Int.log 2 x - 52, by omega, ?_, ?_⟩
    · unfold leastExponent
      omega
    · rw [← hunit, ← Int.cast_natCast, Int.toNat_of_nonneg hnonneg]
  refine (h.le _ hbinary).trans ?_
  have hdistance : round (x / unit) * unit - x = -(x / unit - round (x / unit)) * unit := by
    field_simp
    ring
  rw [hdistance, abs_mul, abs_neg, abs_of_pos hunit_pos]
  calc |x / unit - round (x / unit)| * unit ≤ 1 / 2 * unit := by
        gcongr
        exact abs_sub_round _
    _ ≤ x / 2 ^ 53 := by linarith

end Nearest

section Quotient

variable {num den : Nat}

theorem two_pow_eq_leastNormal : (2 : ℚ) ^ 52 = (leastNormal : Nat) := by norm_num [leastNormal]

theorem div_eq_add_mod (hden : 0 < den) :
    (num : ℚ) / den = (num / den : Nat) + (num % den : Nat) / (den : ℚ) := by
  have hsplit : (num : ℚ) = den * (num / den : Nat) + (num % den : Nat) := by
    exact_mod_cast (Nat.div_add_mod num den).symm
  have hpos : (0 : ℚ) < den := by exact_mod_cast hden
  rw [div_eq_iff hpos.ne', add_mul, div_mul_cancel₀ _ hpos.ne', mul_comm]
  exact hsplit

/-- A quotient is rounded by half a unit at most, and by half a unit to an even number only. -/
theorem roundQuotient_spec (num : Nat) (hden : 0 < den) :
    |(roundQuotient num den : ℚ) - num / den| ≤ 1 / 2 ∧
      (|(roundQuotient num den : ℚ) - num / den| = 1 / 2 → Even (roundQuotient num den)) := by
  have hpos : (0 : ℚ) < den := by exact_mod_cast hden
  obtain ⟨part, hpart⟩ : ∃ part : ℚ, part = (num % den : Nat) / (den : ℚ) := ⟨_, rfl⟩
  have hnonneg : 0 ≤ part := hpart ▸ by positivity
  have hmul : part * den = (num % den : Nat) := by rw [hpart, div_mul_cancel₀ _ hpos.ne']
  have hlt : part < 1 := by
    rw [hpart, div_lt_one hpos]
    exact_mod_cast Nat.mod_lt num hden
  rw [div_eq_add_mod hden, ← hpart, roundQuotient]
  rcases lt_trichotomy (2 * (num % den)) den with h | h | h
  · have hsmall : part < 1 / 2 := by
      have hcast : 2 * ((num % den : Nat) : ℚ) < den := by exact_mod_cast h
      rw [← hmul] at hcast
      by_contra hlarge
      nlinarith
    have hdistance : |((num / den : Nat) : ℚ) - ((num / den : Nat) + part)| = part := by
      rw [sub_add_cancel_left, abs_neg, abs_of_nonneg hnonneg]
    rw [if_pos h, hdistance]
    exact ⟨hsmall.le, fun heq => absurd heq hsmall.ne⟩
  · have hhalf : part = 1 / 2 := by
      have hcast : 2 * ((num % den : Nat) : ℚ) = den := by exact_mod_cast h
      rw [← hmul] at hcast
      exact mul_right_cancel₀ hpos.ne' (by linarith)
    rw [if_neg (by omega), if_neg (by omega), hhalf]
    refine ⟨?_, fun _ => Nat.even_iff.2 (by omega)⟩
    rcases Nat.mod_two_eq_zero_or_one (num / den) with heven | hodd
    · rw [heven, abs_le]
      constructor <;> push_cast <;> linarith
    · rw [hodd, abs_le]
      constructor <;> push_cast <;> linarith
  · have hlarge : 1 / 2 < part := by
      have hcast : (den : ℚ) < 2 * ((num % den : Nat) : ℚ) := by exact_mod_cast h
      rw [← hmul] at hcast
      by_contra hsmall
      nlinarith
    have hdistance : |((num / den + 1 : Nat) : ℚ) - ((num / den : Nat) + part)| = 1 - part := by
      rw [abs_of_nonneg (by push_cast; linarith)]
      push_cast
      ring
    rw [if_neg (by omega), if_pos h, hdistance]
    exact ⟨by linarith, fun heq => absurd heq (by linarith)⟩

/-- An integer is no nearer to a number than one at half a unit or less, and as near only at half a
unit. -/
theorem abs_sub_le_of_half {x : ℚ} {n k : Int} (h : |(n : ℚ) - x| ≤ 1 / 2) :
    |(n : ℚ) - x| ≤ |(k : ℚ) - x| ∧ (k ≠ n → |(k : ℚ) - x| = |(n : ℚ) - x| →
      |(n : ℚ) - x| = 1 / 2) := by
  by_cases hk : k = n
  · rw [hk]
    exact ⟨le_rfl, fun hne => absurd rfl hne⟩
  · have hunit : (1 : ℚ) ≤ |(k : ℚ) - n| := by
      have hint : 1 ≤ |k - n| := Int.one_le_abs (sub_ne_zero.2 hk)
      exact_mod_cast hint
    have htriangle := abs_sub_le (k : ℚ) x n
    rw [abs_sub_comm x] at htriangle
    exact ⟨by linarith, fun _ heq => by linarith⟩

/-- A fraction in units of a power of two, as a fraction of natural numbers. -/
theorem div_two_zpow (num den : Nat) (e : Int) : (num / den : ℚ) / 2 ^ e =
    ((num * Nat.pow 2 (-e).toNat : Nat) : ℚ) / ((den * Nat.pow 2 e.toNat : Nat) : ℚ) := by
  rw [zpow_eq_div, Nat.pow_eq, Nat.pow_eq]
  push_cast
  rw [div_div_div_eq]

/-- The guess is right or too high by one. -/
theorem guess_spec (hnum : 0 < num) (hden : 0 < den) {guess : Int}
    (hguess : guess = num.log2 - den.log2 - 52) :
    2 ^ 51 < (num / den : ℚ) / 2 ^ guess ∧ (num / den : ℚ) / 2 ^ guess < 2 ^ 53 := by
  have hpos : (0 : ℚ) < den := by exact_mod_cast hden
  have hnum_low : (2 : ℚ) ^ num.log2 ≤ num := by exact_mod_cast Nat.log2_self_le hnum.ne'
  have hnum_high : (num : ℚ) < 2 ^ (num.log2 + 1) := by exact_mod_cast Nat.lt_log2_self
  have hden_low : (2 : ℚ) ^ den.log2 ≤ den := by exact_mod_cast Nat.log2_self_le hden.ne'
  have hden_high : (den : ℚ) < 2 ^ (den.log2 + 1) := by exact_mod_cast Nat.lt_log2_self
  have hbits (k : Nat) (n : Int) (hn : n = k + guess) : (2 : ℚ) ^ k * 2 ^ guess = 2 ^ n := by
    rw [hn, zpow_add₀ two_ne_zero, zpow_natCast]
  have hscale : (0 : ℚ) < 2 ^ guess := by positivity
  constructor
  · rw [lt_div_iff₀ hscale, lt_div_iff₀ hpos, hbits 51 (guess + 51) (by omega)]
    calc (2 : ℚ) ^ (guess + 51) * den < 2 ^ (guess + 51) * 2 ^ (den.log2 + 1) := by gcongr
      _ = 2 ^ num.log2 := by
        rw [← zpow_natCast, ← zpow_natCast, ← zpow_add₀ two_ne_zero]
        congr 1
        push_cast
        omega
      _ ≤ num := hnum_low
  · rw [div_lt_iff₀ hscale, div_lt_iff₀ hpos, hbits 53 (guess + 53) (by omega)]
    calc (num : ℚ) < 2 ^ (num.log2 + 1) := hnum_high
      _ = 2 ^ (guess + 53) * 2 ^ den.log2 := by
        rw [← zpow_natCast, ← zpow_natCast, ← zpow_add₀ two_ne_zero]
        congr 1
        push_cast
        omega
      _ ≤ 2 ^ (guess + 53) * den := by gcongr

/-- The fraction in units of the last bit has 53 bits, or fewer at the least exponent. -/
theorem exponentOf_spec (hnum : 0 < num) (hden : 0 < den) :
    let e := exponentOf num den
    leastExponent ≤ e ∧ (num / den : ℚ) / 2 ^ e < 2 ^ 53 ∧
      (e = leastExponent ∨ 2 ^ 52 ≤ (num / den : ℚ) / 2 ^ e) := by
  intro e
  obtain ⟨guess, hguess⟩ : ∃ guess : Int, guess = num.log2 - den.log2 - 52 := ⟨_, rfl⟩
  obtain ⟨hlow, hhigh⟩ := guess_spec hnum hden hguess
  have hpos : (0 : ℚ) < (den * Nat.pow 2 guess.toNat : Nat) := by
    exact_mod_cast Nat.mul_pos hden (Nat.two_pow_pos _)
  have htoo : num * Nat.pow 2 (-guess).toNat < leastNormal * (den * Nat.pow 2 guess.toNat) ↔
      (num / den : ℚ) / 2 ^ guess < 2 ^ 52 := by
    rw [div_two_zpow, div_lt_iff₀ hpos, two_pow_eq_leastNormal]
    exact_mod_cast Iff.rfl
  obtain ⟨place, hplace, hplace_low, hplace_high⟩ : ∃ place : Int,
      e = max leastExponent place ∧ 2 ^ 52 ≤ (num / den : ℚ) / 2 ^ place ∧
        (num / den : ℚ) / 2 ^ place < 2 ^ 53 := by
    by_cases h : (num / den : ℚ) / 2 ^ guess < 2 ^ 52
    · refine ⟨guess - 1, ?_, ?_⟩
      · simp only [e, exponentOf, ← hguess, htoo.2 h, if_true]
      · rw [zpow_sub_one₀ two_ne_zero, div_mul_eq_div_div, div_inv_eq_mul]
        constructor <;> linarith
    · refine ⟨guess, ?_, not_lt.1 h, hhigh⟩
      simp only [e, exponentOf, ← hguess, htoo.not.2 h, if_false]
  rw [hplace]
  rcases le_total place leastExponent with hle | hle
  · rw [max_eq_left hle]
    refine ⟨le_rfl, lt_of_le_of_lt ?_ hplace_high, .inl rfl⟩
    gcongr
    exact one_le_two
  · rw [max_eq_right hle]
    exact ⟨hle, hplace_high, .inr hplace_low⟩

end Quotient

section Rounding

variable {x r : ℚ} {e : Int}

/-- In units of the last bit, no number of 53 bits is nearer than some integer. -/
theorem exists_int_of_isBinary (hr : IsBinary r) (hbits : e = leastExponent ∨ 2 ^ 52 ≤ x / 2 ^ e) :
    ∃ k : Int, |(k : ℚ) - x / 2 ^ e| ≤ |r / 2 ^ e - x / 2 ^ e| ∧
      (|r / 2 ^ e - x / 2 ^ e| = |(k : ℚ) - x / 2 ^ e| → r / 2 ^ e = k) := by
  obtain ⟨s, f, hs, hf, rfl⟩ := hr
  have hunits : (s * 2 ^ f : ℚ) / 2 ^ e = s * 2 ^ (f - e) := by
    rw [mul_div_assoc, ← zpow_sub₀ two_ne_zero]
  rcases le_or_gt e f with hle | hlt
  · have hmultiple : (s * 2 ^ f : ℚ) / 2 ^ e = (s * 2 ^ (f - e).toNat : Nat) := by
      rw [mul_two_zpow s hle, mul_div_cancel_right₀ _ (by positivity)]
    refine ⟨(s * 2 ^ (f - e).toNat : Nat), ?_⟩
    rw [hmultiple, Int.cast_natCast]
    exact ⟨le_rfl, fun _ => rfl⟩
  · have hnormal : 2 ^ 52 ≤ x / 2 ^ e := hbits.resolve_left (by omega)
    have hsmall : (s * 2 ^ f : ℚ) / 2 ^ e ≤ 2 ^ 52 := by
      rw [hunits]
      have hcast : (s : ℚ) ≤ 2 ^ 53 := by exact_mod_cast hs
      have hpow : (2 : ℚ) ^ (f - e) ≤ 2 ^ (-1 : Int) := zpow_le_zpow_right₀ one_le_two (by omega)
      calc (s : ℚ) * 2 ^ (f - e) ≤ 2 ^ 53 * 2 ^ (-1 : Int) := by gcongr
        _ = 2 ^ 52 := by norm_num
    refine ⟨2 ^ 52, ?_⟩
    push_cast
    rw [abs_of_nonpos (by linarith), abs_of_nonpos (by linarith)]
    exact ⟨by linarith, fun heq => by linarith⟩

/-- Rounding to an integer in units of the last bit finds the nearest magnitude. -/
theorem nearest_of_units {s : Nat} {m : Magnitude} (hsignificand : m.significand < 2 ^ 53)
    (hexponent : leastExponent ≤ m.exponent) (hbits : e = leastExponent ∨ 2 ^ 52 ≤ x / 2 ^ e)
    (hs : |(s : ℚ) - x / 2 ^ e| ≤ 1 / 2 ∧ (|(s : ℚ) - x / 2 ^ e| = 1 / 2 → Even s))
    (hvalue : m.value = s * 2 ^ e) (heven : Even s → Even m.significand) : m.Nearest x := by
  have hunit : (0 : ℚ) < 2 ^ e := by positivity
  have hscale (r : ℚ) : |r - x| = |r / 2 ^ e - x / 2 ^ e| * 2 ^ e := by
    rw [← sub_div, abs_div, abs_of_pos hunit, div_mul_cancel₀ _ hunit.ne']
  have hcast : m.value / 2 ^ e = ((s : Int) : ℚ) := by
    rw [hvalue, mul_div_cancel_right₀ _ hunit.ne', Int.cast_natCast]
  have hhalf : |((s : Int) : ℚ) - x / 2 ^ e| ≤ 1 / 2 := hs.1
  refine ⟨hsignificand, hexponent, ?_, ?_⟩
  · intro r hr
    obtain ⟨k, hk, -⟩ := exists_int_of_isBinary hr hbits
    rw [hscale, hscale, hcast]
    exact mul_le_mul_of_nonneg_right ((abs_sub_le_of_half hhalf).1.trans hk) hunit.le
  · intro r hr hne heq
    obtain ⟨k, hk, hint⟩ := exists_int_of_isBinary hr hbits
    obtain ⟨hnear, htie⟩ := abs_sub_le_of_half (k := k) hhalf
    rw [hscale, hscale, hcast] at heq
    have hsame := mul_right_cancel₀ hunit.ne' heq
    have hk' : r / 2 ^ e = k := hint (le_antisymm (hsame.le.trans hnear) hk)
    have hks : k ≠ s := by
      rintro rfl
      rw [← hcast] at hk'
      exact hne ((div_left_inj' hunit.ne').1 hk')
    rw [hk'] at hsame
    exact heven (hs.2 (htie hks hsame))

/-- A fraction is rounded to the nearest magnitude, unless that is too large. -/
theorem nearest?_spec (num : Nat) {den : Nat} (hden : 0 < den) :
    ∃ m : Magnitude, m.Nearest (num / den) ∧
      (m.exponent = leastExponent ∨ leastNormal ≤ m.significand) ∧
      nearest? num den = if m.exponent ≤ greatestExponent then some m else none := by
  by_cases hzero : num = 0
  · refine ⟨⟨0, leastExponent⟩, ?_, .inl rfl, ?_⟩
    · rw [hzero, Nat.cast_zero, zero_div]
      exact nearest_zero le_rfl (by positivity)
    · rw [nearest?, if_pos hzero, if_pos (by decide)]
  · have hnum := Nat.pos_of_ne_zero hzero
    obtain ⟨he, hhigh, hbits⟩ := exponentOf_spec hnum hden
    have hpos : 0 < den * Nat.pow 2 (exponentOf num den).toNat :=
      Nat.mul_pos hden (Nat.two_pow_pos _)
    have hs := roundQuotient_spec (num * Nat.pow 2 (-exponentOf num den).toNat) hpos
    rw [← div_two_zpow] at hs
    simp only [nearest?, if_neg hzero]
    generalize exponentOf num den = e at he hhigh hbits hs ⊢
    generalize roundQuotient _ _ = s at hs ⊢
    obtain ⟨hs_low, hs_high⟩ := abs_le.1 hs.1
    have hle : s ≤ 2 * leastNormal := by
      have hlt : (s : ℚ) < ((2 ^ 53 + 1 : Nat) : ℚ) := by
        push_cast
        linarith
      exact Nat.lt_succ_iff.1 (Nat.cast_lt.1 hlt)
    have hnormal : e = leastExponent ∨ leastNormal ≤ s := by
      refine hbits.imp_right fun hlow => ?_
      have hlt : ((leastNormal : Nat) : ℚ) < ((s + 1 : Nat) : ℚ) := by
        rw [← two_pow_eq_leastNormal]
        push_cast
        linarith
      exact Nat.lt_succ_iff.1 (Nat.cast_lt.1 hlt)
    by_cases hcarry : s = 2 * leastNormal
    · have heven : Even leastNormal := by decide
      have hfits : leastNormal < 2 ^ 53 := by decide
      refine ⟨⟨leastNormal, e + 1⟩, ?_, .inr le_rfl, ?_⟩
      · refine nearest_of_units hfits (by dsimp only; omega) hbits hs ?_ fun _ => heven
        rw [value, hcarry, zpow_add_one₀ two_ne_zero]
        push_cast
        ring
      · simp only [if_pos hcarry]
    · refine ⟨⟨s, e⟩, ?_, hnormal, ?_⟩
      · exact nearest_of_units (lt_of_le_of_ne hle hcarry) he hbits hs rfl id
      · simp only [if_neg hcarry]

/-- No fraction up to `2 ^ 1023` is too large. -/
theorem exists_nearest? {num den : Nat} (hden : 0 < den) (h : (num / den : ℚ) ≤ 2 ^ (1023 : Int)) :
    ∃ m, nearest? num den = some m ∧ m.Nearest (num / den) := by
  obtain ⟨m, hm, hnormal, heq⟩ := nearest?_spec num hden
  refine ⟨m, ?_, hm⟩
  rw [heq, if_pos]
  rcases hnormal with hleast | hnormal
  · rw [hleast]
    decide
  · have hvalue := hm.value_le (IsBinary.two_zpow (by decide)) h
    have hpow : (2 : ℚ) ^ (52 + m.exponent) ≤ 2 ^ (1023 : Int) := by
      have hcast : (2 : ℚ) ^ 52 ≤ m.significand := by
        rw [two_pow_eq_leastNormal]
        exact Nat.cast_le.2 hnormal
      calc (2 : ℚ) ^ (52 + m.exponent) = 2 ^ 52 * 2 ^ m.exponent := by
            rw [zpow_add₀ two_ne_zero, zpow_ofNat]
        _ ≤ m.significand * 2 ^ m.exponent := by gcongr
        _ ≤ 2 ^ (1023 : Int) := hvalue
    have := (zpow_le_zpow_iff_right₀ one_lt_two).1 hpow
    unfold greatestExponent
    omega

/-- A product is rounded to the nearest magnitude. -/
theorem exists_multiply? {a b : Magnitude} (h : a.value * b.value ≤ 2 ^ (1023 : Int)) :
    ∃ m, a.multiply? b = some m ∧ m.Nearest (a.value * b.value) := by
  have hfraction : a.value * b.value =
      ((a.numerator * b.numerator : Nat) : ℚ) / ((a.denominator * b.denominator : Nat) : ℚ) := by
    rw [value_eq_div, value_eq_div, div_mul_div_comm]
    push_cast
    rfl
  rw [hfraction] at h ⊢
  exact exists_nearest? (Nat.mul_pos a.denominator_pos b.denominator_pos) h

end Rounding
end Magnitude
end ReplayLog
