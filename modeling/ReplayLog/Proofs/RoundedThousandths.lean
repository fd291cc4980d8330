import ReplayLog.Numeric.Decimal
import ReplayLog.Proofs.BinaryRounding

/-! # Rounded thousandths

A decimal is rounded to its nearest magnitude, whatever its size. The thousandths of a number are
the product of this magnitude with a thousand, which is rounded again, so their whole part is not
always that of a thousand times the number. It loses one at most, and where a thousand times the
number is not whole and has not too many digits, the roundings do not reach the next integer. -/
namespace ReplayLog

namespace Decimal

variable {digits : Nat} {exponent : Int}

/-- The size bounds a decimal from above. -/
theorem lt_zpow_size (digits : Nat) (exponent : Int) :
    (digits * 10 ^ exponent : ℚ) < 10 ^ ((Nat.toDigits 10 digits).length + exponent) := by
  have hlt : (digits : ℚ) < 10 ^ (Nat.toDigits 10 digits).length := by
    exact_mod_cast (Nat.length_toDigits_le_iff (by decide) Nat.length_toDigits_pos).1 le_rfl
  rw [zpow_add₀ (by norm_num), zpow_natCast]
  gcongr

/-- The size bounds a decimal other than zero from below. -/
theorem zpow_size_le (hdigits : digits ≠ 0) (exponent : Int) :
    (10 ^ ((Nat.toDigits 10 digits).length + exponent - 1) : ℚ) ≤ digits * 10 ^ exponent := by
  obtain ⟨k, hk⟩ : ∃ k, (Nat.toDigits 10 digits).length = k + 1 :=
    Nat.exists_eq_succ_of_ne_zero Nat.length_toDigits_pos.ne'
  have hle : 10 ^ k ≤ digits := by
    rcases Nat.eq_zero_or_pos k with rfl | hk'
    · exact Nat.one_le_iff_ne_zero.2 hdigits
    · refine not_lt.1 fun hlt => ?_
      have := (Nat.length_toDigits_le_iff (by decide) hk').2 hlt
      omega
  have hexponent : ((Nat.toDigits 10 digits).length + exponent - 1 : Int) = k + exponent := by
    omega
  rw [hexponent, zpow_add₀ (by norm_num), zpow_natCast]
  have hcast : (10 ^ k : ℚ) ≤ digits := by exact_mod_cast hle
  gcongr

theorem two_pow_le_ten_pow : (2 : ℚ) ^ 1023 ≤ 10 ^ 308 := by
  calc (2 : ℚ) ^ 1023 = (2 ^ 93) ^ 11 := pow_mul 2 93 11
    _ ≤ (10 ^ 28) ^ 11 := by gcongr; norm_num
    _ = 10 ^ 308 := (pow_mul 10 28 11).symm

/-- A decimal of a size that is not computed is no more than half the least magnitude. -/
theorem zpow_size_le_two_zpow {size : Int} (h : size ≤ -324) :
    (10 : ℚ) ^ size ≤ 2 ^ (Magnitude.leastExponent - 1) := by
  have hpow : (2 : ℚ) ^ 1075 ≤ 10 ^ 324 := by
    calc (2 : ℚ) ^ 1075 = 2 ^ 1023 * 2 ^ 52 := pow_add 2 1023 52
      _ ≤ 10 ^ 308 * 10 ^ 16 := mul_le_mul two_pow_le_ten_pow (by norm_num) (by positivity)
          (by positivity)
      _ = 10 ^ 324 := (pow_add 10 308 16).symm
  have hleast : Magnitude.leastExponent - 1 = -((1075 : Nat) : Int) := rfl
  rw [hleast, zpow_neg, zpow_natCast]
  calc (10 : ℚ) ^ size ≤ 10 ^ (-((324 : Nat) : Int)) := zpow_le_zpow_right₀ (by norm_num) h
    _ = (10 ^ 324)⁻¹ := by rw [zpow_neg, zpow_natCast]
    _ ≤ (2 ^ 1075)⁻¹ := inv_anti₀ (pow_pos two_pos 1075) hpow

/-- A decimal that is not too large is rounded to its nearest magnitude. -/
theorem exists_nearest? (h : (digits * 10 ^ exponent : ℚ) ≤ 2 ^ (1023 : Int)) :
    ∃ m, nearest? digits exponent = some m ∧ m.Nearest (digits * 10 ^ exponent) := by
  have hsize := lt_zpow_size digits exponent
  have hsize_le (hdigits : digits ≠ 0) := zpow_size_le hdigits exponent
  rw [nearest?]
  generalize ((Nat.toDigits 10 digits).length + exponent : Int) = size at hsize hsize_le ⊢
  by_cases hsmall : digits = 0 ∨ size ≤ -324
  · rw [if_pos hsmall]
    have hten : (0 : ℚ) ≤ 10 ^ exponent := zpow_nonneg (by norm_num) _
    refine ⟨_, rfl, Magnitude.nearest_zero (mul_nonneg (Nat.cast_nonneg _) hten) ?_⟩
    rcases hsmall with rfl | hsmall
    · rw [Nat.cast_zero, zero_mul]
      exact zpow_nonneg zero_le_two _
    · exact hsize.le.trans (zpow_size_le_two_zpow hsmall)
  · obtain ⟨hdigits, -⟩ := not_or.1 hsmall
    have hfits : ¬309 < size := by
      intro hlarge
      have hle : (10 : ℚ) ^ (309 : Nat) ≤ 10 ^ (308 : Nat) := by
        calc (10 : ℚ) ^ (309 : Nat) = 10 ^ ((309 : Nat) : Int) := (zpow_natCast 10 309).symm
          _ ≤ 10 ^ (size - 1) := zpow_le_zpow_right₀ (by norm_num) (by omega)
          _ ≤ digits * 10 ^ exponent := hsize_le hdigits
          _ ≤ 2 ^ ((1023 : Nat) : Int) := h
          _ = 2 ^ 1023 := zpow_natCast 2 1023
          _ ≤ 10 ^ (308 : Nat) := two_pow_le_ten_pow
      have := (pow_le_pow_iff_right₀ (by norm_num)).1 hle
      omega
    have hfraction : (digits * 10 ^ exponent : ℚ) =
        (digits * Nat.pow 10 exponent.toNat : Nat) / (Nat.pow 10 (-exponent).toNat : Nat) := by
      rw [zpow_eq_div, Nat.pow_eq, Nat.pow_eq]
      push_cast
      ring
    rw [if_neg hsmall, if_neg hfits]
    rw [hfraction] at h ⊢
    exact Magnitude.exists_nearest? (Nat.pow_pos (by decide)) h

end Decimal

namespace Magnitude

theorem value_thousand : thousand.value = 1000 := by norm_num [value, thousand]

/-- The whole part of a nearest magnitude is not below an integer that the number is not below. -/
theorem Nearest.le_floor {m : Magnitude} {x : ℚ} {k : Int} (h : m.Nearest x)
    (hk : (k : ℚ) ≤ 2 ^ 53) (hle : (k : ℚ) ≤ x) : k ≤ ⌊m.value⌋ := by
  rw [Int.le_floor]
  rcases Int.le_total k 0 with hneg | hpos
  · exact le_trans (Int.cast_nonpos.2 hneg) h.binary.nonneg
  · obtain ⟨n, rfl⟩ := Int.eq_ofNat_of_zero_le hpos
    exact h.le_value (IsBinary.natCast (by exact_mod_cast hk)) hle

/-- The magnitude of a number, and that of a thousand times the first one. -/
structure Thousandfold (x : ℚ) (a p : Magnitude) : Prop where
  nearest : a.Nearest x
  product : p.Nearest (1000 * a.value)

namespace Thousandfold

variable {x : ℚ} {a p : Magnitude}

/-- The first rounding moves a number by one part in `2 ^ 53`, unless it is so small that nothing of
its thousandths is whole. -/
theorem close_or_floor_eq_zero (h : Thousandfold x a p) (hx : 0 ≤ x) :
    (2 : ℚ) ^ (-1022 : Int) ≤ 1000 * a.value ∧ |1000 * a.value - 1000 * x| ≤ 1000 * x / 2 ^ 53 ∨
      ⌊1000 * x⌋ = 0 ∧ ⌊p.value⌋ = 0 := by
  have hleast : IsBinary (2 ^ (-1022 : Int)) := IsBinary.two_zpow (by decide)
  rcases le_total ((2 : ℚ) ^ (-1022 : Int)) x with hlarge | hsmall
  · refine .inl ⟨?_, ?_⟩
    · have := h.nearest.le_value hleast hlarge
      linarith [h.nearest.binary.nonneg]
    · rw [← mul_sub, abs_mul, abs_of_pos (by norm_num : (0 : ℚ) < 1000), mul_div_assoc]
      exact mul_le_mul_of_nonneg_left (h.nearest.close hlarge) (by norm_num)
  · have htiny : (2 : ℚ) ^ (-1022 : Int) ≤ 1 / 2048 := by
      calc (2 : ℚ) ^ (-1022 : Int) ≤ 2 ^ (-11 : Int) := zpow_le_zpow_right₀ one_le_two (by decide)
        _ = 1 / 2048 := by norm_num
    have ha := h.nearest.value_le hleast hsmall
    have hhalf : IsBinary (1 / 2) := by exact_mod_cast IsBinary.half (n := 1) (by norm_num)
    generalize (2 : ℚ) ^ (-1022 : Int) = least at hsmall htiny ha
    have hp : p.value ≤ 1 / 2 := h.product.value_le hhalf (by linarith)
    have hp_nonneg := h.product.binary.nonneg
    refine .inr ⟨Int.floor_eq_zero_iff.2 ⟨?_, ?_⟩, Int.floor_eq_zero_iff.2 ⟨?_, ?_⟩⟩ <;> linarith

/-- One is lost at most. -/
theorem sub_one_le_floor (h : Thousandfold x a p) (hx : 0 ≤ x) (hlt : 1000 * x < 2 ^ 53) :
    ⌊1000 * x⌋ - 1 ≤ ⌊p.value⌋ := by
  rcases h.close_or_floor_eq_zero hx with ⟨-, hclose⟩ | ⟨hfloor, hp⟩
  · have hfloor := Int.floor_le (1000 * x)
    have hlow := (abs_le.1 hclose).1
    refine h.product.le_floor ?_ ?_ <;> push_cast <;> linarith
  · omega

/-- Nothing is lost if the first rounding is not downward. -/
theorem floor_le (h : Thousandfold x a p) (hlt : 1000 * x < 2 ^ 53) (hup : x ≤ a.value) :
    ⌊1000 * x⌋ ≤ ⌊p.value⌋ := by
  have hfloor := Int.floor_le (1000 * x)
  exact h.product.le_floor (by linarith) (by linarith)

/-- The second rounding passes the integer above the thousandths by no more than the first. -/
theorem value_lt (h : Thousandfold x a p) {δ : ℚ} (hx : 0 ≤ x) (hlt : 1000 * x < 2 ^ 53)
    (hδ : 0 < δ) (hclose : |1000 * a.value - 1000 * x| ≤ δ) :
    p.value < ⌊1000 * x⌋ + 1 + 2 * δ := by
  have hfloor := Int.lt_floor_add_one (1000 * x)
  have hfloor_lt : ⌊1000 * x⌋ < 2 ^ 53 := Int.floor_lt.2 (by exact_mod_cast hlt)
  have hnonneg : 0 ≤ ⌊1000 * x⌋ := Int.floor_nonneg.2 (by linarith)
  have hbinary : IsBinary (⌊1000 * x⌋ + 1) := by
    have hnat := IsBinary.natCast (n := (⌊1000 * x⌋ + 1).toNat) (by omega)
    rwa [← Int.cast_natCast, Int.toNat_of_nonneg (by omega), Int.cast_add, Int.cast_one] at hnat
  rcases le_total (1000 * a.value) (⌊1000 * x⌋ + 1) with hle | hle
  · linarith [h.product.value_le hbinary hle]
  · linarith [h.product.value_le_add hbinary hle, (abs_le.1 hclose).2]

/-- For every `2 ^ 52` of the thousandths, one can be gained. -/
theorem floor_le_add (h : Thousandfold x a p) (hx : 0 ≤ x) (hlt : 1000 * x < 2 ^ 53) {n : Nat}
    (hn : 0 < n) (hle : 1000 * x ≤ n * 2 ^ 52) : ⌊p.value⌋ ≤ ⌊1000 * x⌋ + n := by
  rcases h.close_or_floor_eq_zero hx with ⟨-, hclose⟩ | ⟨hfloor, hp⟩
  · have hhalf : (0 : ℚ) < n / 2 := half_pos (Nat.cast_pos.2 hn)
    have hvalue := h.value_lt hx hlt hhalf (hclose.trans (by linarith))
    exact Int.lt_add_one_iff.1 (Int.floor_lt.2 (by push_cast; linarith))
  · omega

/-- Whole thousandths do not become more. -/
theorem floor_le_of_eq (h : Thousandfold x a p) (hx : 0 ≤ x) (hlt : 1000 * x < 2 ^ 52)
    (heq : 1000 * x = ⌊1000 * x⌋) : ⌊p.value⌋ ≤ ⌊1000 * x⌋ := by
  rcases h.close_or_floor_eq_zero hx with ⟨-, hclose⟩ | ⟨hfloor, hp⟩
  · obtain ⟨k, hk⟩ := Int.eq_ofNat_of_zero_le (Int.floor_nonneg.2 (by linarith : 0 ≤ 1000 * x))
    rw [hk, Int.cast_natCast] at heq
    have hk_lt : k < 2 ^ 52 := by
      rw [heq] at hlt
      exact_mod_cast hlt
    have hhalf := IsBinary.half (n := 2 * k + 1) (by omega)
    have hvalue := h.product.value_le hhalf (by push_cast; linarith [(abs_le.1 hclose).2])
    rw [hk]
    refine Int.lt_add_one_iff.1 (Int.floor_lt.2 ?_)
    push_cast at hvalue ⊢
    linarith
  · omega

/-- A number of units that is no integer is one unit at least from the integers beside it. -/
theorem floor_add_unit_le {y : ℚ} {units scale : Nat} (hscale : 0 < scale)
    (hunits : y * scale = units) (hpart : y ≠ ⌊y⌋) :
    ⌊y⌋ + 1 / scale ≤ y ∧ y + 1 / scale ≤ ⌊y⌋ + 1 := by
  have hpos : (0 : ℚ) < scale := by exact_mod_cast hscale
  have hy : y = units / scale := (eq_div_iff hpos.ne').2 hunits
  have hlow : ⌊y⌋ * scale + 1 ≤ (units : Int) := by
    have hlt : (⌊y⌋ : ℚ) * scale < units := by
      rw [← hunits]
      exact mul_lt_mul_of_pos_right (lt_of_le_of_ne (Int.floor_le y) hpart.symm) hpos
    exact_mod_cast hlt
  have hhigh : (units : Int) + 1 ≤ (⌊y⌋ + 1) * scale := by
    have hlt : (units : ℚ) < (⌊y⌋ + 1) * scale := by
      rw [← hunits]
      exact mul_lt_mul_of_pos_right (Int.lt_floor_add_one y) hpos
    exact_mod_cast hlt
  have hlow_cast : (⌊y⌋ : ℚ) * scale + 1 ≤ units := by exact_mod_cast hlow
  have hhigh_cast : (units : ℚ) + 1 ≤ (⌊y⌋ + 1) * scale := by exact_mod_cast hhigh
  constructor
  · calc (⌊y⌋ : ℚ) + 1 / scale = (⌊y⌋ * scale + 1) / scale := by field_simp
      _ ≤ units / scale := by gcongr
      _ = y := hy.symm
  · calc y + 1 / scale = (units + 1) / scale := by rw [hy, add_div]
      _ ≤ (⌊y⌋ + 1) * scale / scale := by gcongr
      _ = ⌊y⌋ + 1 := mul_div_cancel_right₀ _ hpos.ne'

/-- Where something is left to cut, and there are not too many digits, the roundings do not reach
the next integer. -/
theorem floor_eq (h : Thousandfold x a p) {units scale : Nat} (hscale : 0 < scale)
    (hunits : 1000 * x * scale = units) (hfew : units < 2 ^ 52) (hpart : 1000 * x ≠ ⌊1000 * x⌋) :
    ⌊p.value⌋ = ⌊1000 * x⌋ := by
  have hpos : (0 : ℚ) < scale := by exact_mod_cast hscale
  obtain ⟨hbelow, habove⟩ := floor_add_unit_le hscale hunits hpart
  obtain ⟨unit, hunit⟩ : ∃ unit : ℚ, unit = 1 / scale := ⟨_, rfl⟩
  have hunit_pos : 0 < unit := hunit ▸ by positivity
  have hvalue : 1000 * x = units * unit := by rw [hunit, mul_one_div, eq_div_iff hpos.ne', hunits]
  have hcast : (units : ℚ) + 1 ≤ 2 ^ 52 := by exact_mod_cast hfew
  have hmoved : 1000 * x / 2 ^ 52 + 1000 * x / 2 ^ 106 < unit := by
    calc 1000 * x / 2 ^ 52 + 1000 * x / 2 ^ 106 = (units / 2 ^ 52 + units / 2 ^ 106) * unit := by
          rw [hvalue]
          ring
      _ < 1 * unit := mul_lt_mul_of_pos_right (by linarith) hunit_pos
      _ = unit := one_mul unit
  rw [← hunit] at hbelow habove
  have hx : 0 ≤ x := by
    have : 0 ≤ 1000 * x := hvalue ▸ by positivity
    linarith
  rcases h.close_or_floor_eq_zero hx with ⟨hlarge, hclose⟩ | ⟨hfloor, hp⟩
  · have hproduct := (abs_le.1 (h.product.close hlarge)).2
    obtain ⟨hclose_low, hclose_high⟩ := abs_le.1 hclose
    refine le_antisymm ?_ (h.product.le_floor (by linarith) (by linarith))
    exact Int.lt_add_one_iff.1 (Int.floor_lt.2 (by push_cast; linarith))
  · rw [hfloor, hp]

end Thousandfold
end Magnitude

end ReplayLog
