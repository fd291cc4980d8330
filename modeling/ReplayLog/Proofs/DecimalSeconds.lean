import ReplayLog.Entry.Extract
import ReplayLog.Proofs.RoundedThousandths
import ReplayLog.Proofs.StampReading
import ReplayLog.Proofs.Trimming

/-! # Decimals in thousandths

A plain decimal has a sign or none, digits, and more digits behind a point or nothing. It is read as
the number that it writes, which is rounded to a magnitude, multiplied by a thousand, rounded again
and cut to its whole part. Cutting comes last, so a decimal of whole thousandths can lose one of
them if its nearest magnitude is below it. -/
namespace ReplayLog

theorem digitsValue_append (front digits : Text) :
    digitsValue (front ++ digits) =
      digitsValue front * 10 ^ digits.length + digitsValue digits := by
  induction digits using List.reverseRecOn with
  | nil => rw [List.append_nil, List.length_nil, Nat.pow_zero, Nat.mul_one]; rfl
  | append_singleton digits c ih =>
    rw [← List.append_assoc, digitsValue_concat, digitsValue_concat, ih, List.length_append,
      List.length_singleton, Nat.pow_succ]
    ring

namespace Decimal

variable {c : Char} {t unsigned : Text} {negative : Bool}

theorem splitSign_of_isDigit (hc : c.isDigit = true) (t : Text) :
    splitSign (c :: t) = (false, c :: t) := by
  unfold splitSign
  split
  · next heq => exact absurd (List.cons.inj heq).1 (ne_of_isDigit hc (by decide))
  · next heq => exact absurd (List.cons.inj heq).1 (ne_of_isDigit hc (by decide))
  · rfl

/-- A word without digits is not what stands behind a digit. -/
theorem sameIgnoringCase_of_isDigit (hc : c.isDigit = true) (t : Text) {word : Text}
    (hword : (word.any fun l => l.toLower.isDigit) = false) :
    Text.sameIgnoringCase (c :: t) word = false := by
  have hupper : ¬(c.val ≥ 'A'.val ∧ c.val ≤ 'Z'.val) := by
    rintro ⟨hle, -⟩
    have hcode : 65 ≤ c.toNat := UInt32.le_iff_toNat_le.1 hle
    have := (isDigit_iff.1 hc).2
    omega
  have hlower : c.toLower = c := dif_neg hupper
  rw [Text.sameIgnoringCase, List.map_cons, hlower, beq_eq_false_iff_ne]
  intro heq
  have hmem : c ∈ word.map Char.toLower := heq ▸ List.mem_cons_self
  obtain ⟨l, hl, rfl⟩ := List.mem_map.1 hmem
  exact List.any_eq_false.1 hword l hl hc

theorem read_of_isDigit (hc : c.isDigit = true)
    (hsplit : splitSign t = (negative, c :: unsigned)) {d : Decimal}
    (hread : readUnsigned? negative (c :: unsigned) = some d) : read t = .ok d := by
  have hne : t.isEmpty = false := by
    cases t with
    | nil => cases hsplit
    | cons _ _ => rfl
  have hword (word : Text) (h : (word.any fun l => l.toLower.isDigit) = false) :
      ¬Text.sameIgnoringCase (c :: unsigned) word = true := by
    rw [sameIgnoringCase_of_isDigit hc unsigned h]
    exact Bool.false_ne_true
  have hinf : ¬(Text.sameIgnoringCase (c :: unsigned) "inf".toList ||
      Text.sameIgnoringCase (c :: unsigned) "infinity".toList) = true := by
    rw [Bool.or_eq_true, not_or]
    exact ⟨hword _ rfl, hword _ rfl⟩
  rw [read, hne, hsplit, if_neg Bool.false_ne_true]
  dsimp only
  rw [if_neg hinf, if_neg (hword "nan".toList rfl), hread]

end Decimal

/-- The characters of a decimal without an exponent: an optional sign, digits, and behind a point
more digits or nothing at all. -/
structure PlainDecimal where
  sign : Text
  whole : Text
  places : Text
  sign_eq : sign = [] ∨ sign = ['+'] ∨ sign = ['-']
  whole_ne_nil : whole ≠ []
  isDigit_whole : ∀ c ∈ whole, c.isDigit = true
  isDigit_places : ∀ c ∈ places, c.isDigit = true

namespace PlainDecimal

/-- The point and the digits behind it, if there are any. -/
def fraction (d : PlainDecimal) : Text := if d.places = [] then [] else '.' :: d.places

def text (d : PlainDecimal) : Text := d.sign ++ (d.whole ++ d.fraction)

def negative (d : PlainDecimal) : Bool := d.sign == ['-']

/-- The number that the decimal writes, its sign apart. -/
def amount (d : PlainDecimal) : ℚ :=
  digitsValue d.whole + digitsValue d.places / 10 ^ d.places.length

def thousandths (d : PlainDecimal) : ℚ := 1000 * d.amount

/-- The number of all digits, with no regard to the point. -/
def digits (d : PlainDecimal) : Nat := digitsValue (d.whole ++ d.places)

def signed (d : PlainDecimal) (n : Int) : Int := if d.negative then -n else n

variable (d : PlainDecimal)

theorem amount_eq_div : d.amount = d.digits / 10 ^ d.places.length := by
  rw [amount, digits, digitsValue_append]
  push_cast
  field_simp

theorem amount_eq : d.amount = d.digits * 10 ^ (-(d.places.length : Int)) := by
  rw [amount_eq_div, zpow_neg, zpow_natCast, div_eq_mul_inv]

theorem amount_nonneg : 0 ≤ d.amount := by
  rw [amount]
  positivity

theorem not_blank_text : ∀ c ∈ d.text, isBlank c = false := by
  intro c hc
  simp only [text, fraction, List.mem_append] at hc
  rcases hc with hsign | hwhole | hfraction
  · rcases d.sign_eq with h | h | h <;> rw [h] at hsign
    · cases hsign
    · rw [List.mem_singleton.1 hsign]
      decide
    · rw [List.mem_singleton.1 hsign]
      decide
  · exact isBlank_of_isDigit (d.isDigit_whole c hwhole)
  · split at hfraction
    · cases hfraction
    · rcases List.mem_cons.1 hfraction with rfl | hplaces
      · decide
      · exact isBlank_of_isDigit (d.isDigit_places c hplaces)

theorem splitSign_text : Decimal.splitSign d.text = (d.negative, d.whole ++ d.fraction) := by
  obtain ⟨c, rest, hcons⟩ := List.exists_cons_of_ne_nil d.whole_ne_nil
  have hc : c.isDigit = true := d.isDigit_whole c (hcons ▸ List.mem_cons_self)
  rw [text, negative]
  rcases d.sign_eq with h | h | h
  · rw [h, List.nil_append, hcons, List.cons_append, Decimal.splitSign_of_isDigit hc]
    rfl
  · rw [h]
    rfl
  · rw [h]
    rfl

theorem readUnsigned?_text (negative : Bool) :
    Decimal.readUnsigned? negative (d.whole ++ d.fraction) =
      some (.exact negative d.digits (-(d.places.length : Int))) := by
  have hplaces : d.places.takeWhile Char.isDigit = d.places :=
    List.takeWhile_eq_self_iff.2 d.isDigit_places
  have hend : d.places.dropWhile Char.isDigit = [] := List.dropWhile_eq_nil_iff.2 d.isDigit_places
  have hpoint : Char.isDigit '.' ≠ true := by decide
  have hne : ¬(d.whole ++ d.places).isEmpty = true := by
    rw [List.isEmpty_iff, List.append_eq_nil_iff]
    exact fun h => d.whole_ne_nil h.1
  have hexponent : Decimal.readExponent? [] = some 0 := rfl
  rw [Decimal.readUnsigned?, List.takeWhile_append_of_pos d.isDigit_whole,
    List.dropWhile_append_of_pos d.isDigit_whole, digits, fraction]
  split
  · next hnil =>
    rw [hnil, List.append_nil] at hne
    simp only [List.takeWhile_nil, List.dropWhile_nil, List.append_nil, hnil, hexponent, if_neg hne,
      Option.map_some, zero_sub]
  · rw [List.takeWhile_cons_of_neg hpoint, List.dropWhile_cons_of_neg hpoint]
    simp only [List.append_nil, hplaces, hend, hexponent, if_neg hne, Option.map_some, zero_sub]

theorem read_text : Decimal.read d.text = .ok (.exact d.negative d.digits (-d.places.length)) := by
  obtain ⟨c, rest, hcons⟩ := List.exists_cons_of_ne_nil d.whole_ne_nil
  have hc : c.isDigit = true := d.isDigit_whole c (hcons ▸ List.mem_cons_self)
  have hsplit := d.splitSign_text
  have hread := d.readUnsigned?_text d.negative
  rw [hcons, List.cons_append] at hsplit hread
  exact Decimal.read_of_isDigit hc hsplit hread

/-- The whole part of a magnitude that is not too large has the sign of the decimal. -/
theorem truncate_finite {p : Magnitude} (hp : p.value ≤ 2 ^ 54) :
    Span.int64.truncate (.finite d.negative p) = d.signed ⌊p.value⌋ := by
  have htruncate := p.truncate_eq_floor
  have hle : ⌊p.value⌋ ≤ 2 ^ 54 := by
    have hcast := (Int.floor_le p.value).trans hp
    exact_mod_cast hcast
  simp only [Span.truncate, signed, Span.int64, htruncate]
  split <;> omega

/-- A plain decimal that is not too large is rounded twice, before it is cut to its whole part. -/
theorem exists_thousandths (name : Text) (h : d.thousandths < 2 ^ 53) :
    ∃ a p : Magnitude, Magnitude.Thousandfold d.amount a p ∧
      Extract.thousandths name d.text = .ok (d.signed ⌊p.value⌋) := by
  have hfits {y : ℚ} (hy : y ≤ 2 ^ 54) : y ≤ 2 ^ (1023 : Int) := by
    refine hy.trans ?_
    rw [← zpow_natCast]
    exact zpow_le_zpow_right₀ one_le_two (by decide)
  have hamount := d.amount_nonneg
  have hlt : 1000 * d.amount < 2 ^ 53 := h
  obtain ⟨a, ha, hnearest⟩ : ∃ a, Decimal.nearest? d.digits (-d.places.length) = some a ∧
      a.Nearest d.amount := by
    have hlarge : d.amount ≤ 2 ^ (1023 : Int) := hfits (by linarith)
    rw [amount_eq] at hlarge ⊢
    exact Decimal.exists_nearest? hlarge
  have hbinary : IsBinary (2 ^ 44) := by
    exact_mod_cast IsBinary.natCast (n := 2 ^ 44) (by norm_num)
  have ha_le : a.value ≤ 2 ^ 44 := hnearest.value_le hbinary (by linarith)
  obtain ⟨p, hp, hproduct⟩ := Magnitude.exists_multiply? (a := a) (b := .thousand)
    (by rw [Magnitude.value_thousand]; exact hfits (by linarith))
  rw [Magnitude.value_thousand, mul_comm] at hproduct
  have hp_le : p.value ≤ 2 ^ 54 := by
    have hbinary : IsBinary (2 ^ 54) := by
      exact_mod_cast IsBinary.two_zpow (e := 54) (by decide)
    exact hproduct.value_le hbinary (by linarith)
  refine ⟨a, p, ⟨hnearest, hproduct⟩, ?_⟩
  rw [Extract.thousandths, Text.trim_of_not_blank d.not_blank_text, read_text]
  dsimp only
  rw [Decimal.thousandths, Decimal.toBinary64, ha, Binary64.ofRounded, Binary64.scale, hp,
    Binary64.ofRounded, d.truncate_finite hp_le]

/-- The thousandths of a decimal with at most three places are whole. -/
theorem thousandths_whole (hplaces : d.places.length ≤ 3) :
    d.thousandths = ⌊d.thousandths⌋ := by
  obtain ⟨missing, hmissing⟩ := Nat.exists_eq_add_of_le hplaces
  have hthousand : (1000 : ℚ) = 10 ^ d.places.length * 10 ^ missing := by
    rw [← pow_add, ← hmissing]
    norm_num
  have hwhole : d.thousandths = ((d.digits * 10 ^ missing : Nat) : ℚ) := by
    rw [thousandths, amount_eq_div, hthousand]
    push_cast
    field_simp
  rw [hwhole, Int.floor_natCast, Int.cast_natCast]

/-- With more places, the last digit counts units of the thousandths. -/
theorem thousandths_mul_scale (hplaces : 3 ≤ d.places.length) :
    d.thousandths * (10 ^ (d.places.length - 3) : Nat) = d.digits := by
  obtain ⟨more, hmore⟩ := Nat.exists_eq_add_of_le hplaces
  rw [thousandths, amount_eq_div, hmore, Nat.add_sub_cancel_left, pow_add]
  push_cast
  field_simp
  ring

/-- A plain decimal below `2 ^ 53` thousandths is rounded to a magnitude, the product with a
thousand is rounded again, and the whole part of this is read, with the sign. At most one thousandth
is lost, and none if the first rounding is not downward. Whole thousandths do not become more, and
thousandths that are not whole are cut exactly if there are not too many digits. -/
theorem thousandths_text (name : Text) (h : d.thousandths < 2 ^ 53) :
    (∃ a p : Magnitude, a.Nearest d.amount ∧ p.Nearest (1000 * a.value)) ∧
    ∀ a p : Magnitude, a.Nearest d.amount → p.Nearest (1000 * a.value) →
      Extract.thousandths name d.text = .ok (d.signed ⌊p.value⌋) ∧
      ⌊d.thousandths⌋ - 1 ≤ ⌊p.value⌋ ∧ ⌊p.value⌋ ≤ ⌊d.thousandths⌋ + 2 ∧
      (d.thousandths < 2 ^ 52 → ⌊p.value⌋ ≤ ⌊d.thousandths⌋ + 1) ∧
      (d.amount ≤ a.value → ⌊d.thousandths⌋ ≤ ⌊p.value⌋) ∧
      (d.thousandths < 2 ^ 52 → d.thousandths = ⌊d.thousandths⌋ → ⌊p.value⌋ ≤ ⌊d.thousandths⌋) ∧
      (d.digits < 2 ^ 52 → d.thousandths ≠ ⌊d.thousandths⌋ → ⌊p.value⌋ = ⌊d.thousandths⌋) := by
  obtain ⟨a₀, p₀, ⟨ha₀, hp₀⟩, hread⟩ := d.exists_thousandths name h
  refine ⟨⟨a₀, p₀, ha₀, hp₀⟩, fun a p ha hp => ?_⟩
  have hrounded : Magnitude.Thousandfold d.amount a p := ⟨ha, hp⟩
  have hamount := d.amount_nonneg
  have hgained {n : Nat} (hn : 0 < n) (hle : d.thousandths ≤ n * 2 ^ 52) :
      ⌊p.value⌋ ≤ ⌊d.thousandths⌋ + n := hrounded.floor_le_add hamount h hn hle
  rw [← ha.value_unique ha₀] at hp₀
  rw [← hp.value_unique hp₀] at hread
  refine ⟨hread, hrounded.sub_one_le_floor hamount h, hgained two_pos (by push_cast; linarith),
    fun hlt => hgained one_pos (by push_cast; linarith), hrounded.floor_le h,
    hrounded.floor_le_of_eq hamount, fun hfew hpart => ?_⟩
  have hplaces : 3 ≤ d.places.length := by
    by_contra hshort
    exact hpart (d.thousandths_whole (by omega))
  exact hrounded.floor_eq (Nat.pow_pos (by decide)) (d.thousandths_mul_scale hplaces) hfew hpart

def twentyNineAndAHalf : PlainDecimal :=
  ⟨[], "0".toList, "0295".toList, .inl rfl, by decide, List.all_eq_true.1 rfl,
    List.all_eq_true.1 rfl⟩

/-- Half a thousandth is cut. -/
theorem thousandths_twentyNineAndAHalf : twentyNineAndAHalf.thousandths < 2 ^ 53 ∧
    Extract.thousandths "response_time".toList twentyNineAndAHalf.text = .ok 29 := by
  have hdigits : twentyNineAndAHalf.digits = 295 := rfl
  have hplaces : twentyNineAndAHalf.places.length = 4 := rfl
  have hthousandths : twentyNineAndAHalf.thousandths = 59 / 2 := by
    rw [thousandths, amount_eq_div, hdigits, hplaces]
    norm_num
  have hfloor : ⌊twentyNineAndAHalf.thousandths⌋ = 29 := by
    rw [hthousandths]
    norm_num
  have hlt : twentyNineAndAHalf.thousandths < 2 ^ 53 := by
    rw [hthousandths]
    norm_num
  obtain ⟨⟨a, p, ha, hp⟩, hall⟩ :=
    thousandths_text twentyNineAndAHalf "response_time".toList hlt
  obtain ⟨hread, -, -, -, -, -, hcut⟩ := hall a p ha hp
  refine ⟨hlt, ?_⟩
  rw [hread, hcut (by decide) (by rw [hfloor, hthousandths]; norm_num), hfloor]
  rfl

/-- A decimal of whole thousandths whose nearest magnitude is below it. -/
def thousandAndOne : PlainDecimal :=
  ⟨[], "1".toList, "001".toList, .inl rfl, by decide, List.all_eq_true.1 rfl,
    List.all_eq_true.1 rfl⟩

/-- A whole thousandth is lost. -/
theorem thousandths_thousandAndOne : thousandAndOne.thousandths = 1001 ∧
    Extract.thousandths "response_time".toList thousandAndOne.text = .ok 1000 := by
  have hdigits : thousandAndOne.digits = 1001 := rfl
  have hplaces : thousandAndOne.places.length = 3 := rfl
  have hthousandths : thousandAndOne.thousandths = 1001 := by
    rw [thousandths, amount_eq_div, hdigits, hplaces]
    norm_num
  exact ⟨hthousandths, rfl⟩

end PlainDecimal
end ReplayLog
