import Mathlib.Data.List.Basic
import ReplayLog.Text.Utf8

/-! # Reading back UTF-8

Whatever text was encoded is read back, strictly or lossily: every character encodes to one
sequence, and the sequence begins with an octet that announces exactly its continuation octets. -/
namespace ReplayLog
namespace Utf8

private theorem toNat_ofNat {n : Nat} (h : n < 256) : (UInt8.ofNat n).toNat = n := by
  rw [UInt8.toNat_ofNat']
  omega

private theorem ofNat_lt_iff {n : Nat} (h : n < 256) (b : UInt8) :
    UInt8.ofNat n < b ↔ n < b.toNat := by
  rw [UInt8.lt_iff_toNat_lt, toNat_ofNat h]

private theorem ofNat_eq_iff {n : Nat} (h : n < 256) (b : UInt8) :
    UInt8.ofNat n = b ↔ n = b.toNat := by
  rw [← UInt8.toNat_inj, toNat_ofNat h]

theorem lead?_ofNat {n : Nat} (h : n < 256) :
    lead? (UInt8.ofNat n) =
      if n < 0x80 then some ⟨0, 0x80, 0xBF, n⟩
      else if n < 0xC2 then none
      else if n < 0xE0 then some ⟨1, 0x80, 0xBF, n - 0xC0⟩
      else if n < 0xF0 then
        some ⟨2, if n = 0xE0 then 0xA0 else 0x80, if n = 0xED then 0x9F else 0xBF, n - 0xE0⟩
      else if n < 0xF5 then
        some ⟨3, if n = 0xF0 then 0x90 else 0x80, if n = 0xF4 then 0x8F else 0xBF, n - 0xF0⟩
      else none := by
  simp only [lead?, ofNat_lt_iff h, beq_iff_eq, ofNat_eq_iff h, toNat_ofNat h, UInt8.reduceToNat]

theorem continued_of_continuation {missing taken bits n : Nat} {low high : UInt8}
    (rest : List UInt8) (hlow : low.toNat ≤ n + 0x80) (hhigh : n + 0x80 ≤ high.toNat) :
    continued (missing + 1) low high bits taken (UInt8.ofNat (n + 0x80) :: rest) =
      continued missing 0x80 0xBF (bits * 64 + n) (taken + 1) rest := by
  have hn : (UInt8.ofNat (n + 0x80)).toNat = n + 0x80 :=
    toNat_ofNat (Nat.lt_of_le_of_lt hhigh high.toNat_lt)
  have hin : low ≤ UInt8.ofNat (n + 0x80) ∧ UInt8.ofNat (n + 0x80) ≤ high := by
    rw [UInt8.le_iff_toNat_le, UInt8.le_iff_toNat_le, hn]
    exact ⟨hlow, hhigh⟩
  rw [continued, if_pos hin, hn, Nat.add_sub_cancel]

/-- The octets of a character are one sequence, whatever follows them. -/
theorem sequence_utf8EncodeChar (c : Char) (rest : List UInt8) :
    ∃ b bs, String.utf8EncodeChar c = b :: bs ∧ sequence b (bs ++ rest) = .scalar c rest := by
  have hv : c.val.toNat < 0xd800 ∨ 0xdfff < c.val.toNat ∧ c.val.toNat < 0x110000 := c.valid
  have hc : Char.ofNat c.val.toNat = c := Char.ofNat_toNat c
  unfold String.utf8EncodeChar
  generalize c.val.toNat = v at hv hc
  dsimp only
  by_cases h1 : v ≤ 0x7f
  · rw [if_pos h1]
    refine ⟨_, _, rfl, ?_⟩
    rw [sequence, lead?_ofNat (by omega), if_pos (by omega)]
    simp [continued, hc]
  rw [if_neg h1]
  by_cases h2 : v ≤ 0x7ff
  · rw [if_pos h2]
    refine ⟨_, _, rfl, ?_⟩
    have hlead : v / 64 % 0x20 + 0xc0 - 0xc0 = v / 64 := by omega
    have hbits : v / 64 * 64 + v % 64 = v := by omega
    rw [sequence, lead?_ofNat (by omega), if_neg (by omega), if_neg (by omega),
      if_pos (by omega), hlead]
    simp only [List.cons_append, List.nil_append]
    rw [continued_of_continuation _ (by simp) (by simp; omega), continued, hbits, hc]
  rw [if_neg h2]
  by_cases h3 : v ≤ 0xffff
  · rw [if_pos h3]
    refine ⟨_, _, rfl, ?_⟩
    have hlead : v / 4096 % 0x10 + 0xe0 - 0xe0 = v / 4096 := by omega
    have hbits : (v / 4096 * 64 + v / 64 % 64) * 64 + v % 64 = v := by omega
    rw [sequence, lead?_ofNat (by omega), if_neg (by omega), if_neg (by omega),
      if_neg (by omega), if_pos (by omega), hlead]
    simp only [List.cons_append, List.nil_append]
    rw [continued_of_continuation _ (by split <;> simp; omega) (by split <;> (simp; omega)),
      continued_of_continuation _ (by simp) (by simp; omega), continued, hbits, hc]
  · rw [if_neg h3]
    refine ⟨_, _, rfl, ?_⟩
    have hlead : v / 262144 % 0x08 + 0xf0 - 0xf0 = v / 262144 := by omega
    have hbits : ((v / 262144 * 64 + v / 4096 % 64) * 64 + v / 64 % 64) * 64 + v % 64 = v := by
      omega
    rw [sequence, lead?_ofNat (by omega), if_neg (by omega), if_neg (by omega),
      if_neg (by omega), if_neg (by omega), if_pos (by omega), hlead]
    simp only [List.cons_append, List.nil_append]
    rw [continued_of_continuation _ (by split <;> simp; omega) (by split <;> (simp; omega)),
      continued_of_continuation _ (by simp) (by simp; omega),
      continued_of_continuation _ (by simp) (by simp; omega), continued, hbits, hc]

theorem decodeFrom_toUtf8 (t seen : Text) (index : Nat) :
    decodeFrom seen index (Text.toUtf8 t) = .ok (seen.reverse ++ t) := by
  induction t generalizing seen index with
  | nil =>
    rw [Text.toUtf8, List.flatMap_nil, decodeFrom, List.append_nil]
  | cons c t ih =>
    obtain ⟨b, bs, hencode, hsequence⟩ := sequence_utf8EncodeChar c (Text.toUtf8 t)
    rw [Text.toUtf8_cons, hencode, List.cons_append, decodeFrom]
    split
    · next c' rest h =>
      rw [hsequence] at h
      cases h
      rw [ih, List.reverse_cons, List.append_assoc, List.singleton_append]
    · next h =>
      rw [hsequence] at h
      cases h
    · next h =>
      rw [hsequence] at h
      cases h

theorem decodeLossyFrom_toUtf8 (t seen : Text) :
    decodeLossyFrom seen (Text.toUtf8 t) = seen.reverse ++ t := by
  induction t generalizing seen with
  | nil =>
    rw [Text.toUtf8, List.flatMap_nil, decodeLossyFrom, List.append_nil]
  | cons c t ih =>
    obtain ⟨b, bs, hencode, hsequence⟩ := sequence_utf8EncodeChar c (Text.toUtf8 t)
    rw [Text.toUtf8_cons, hencode, List.cons_append, decodeLossyFrom]
    split
    · next c' rest h =>
      rw [hsequence] at h
      cases h
      rw [ih, List.reverse_cons, List.append_assoc, List.singleton_append]
    · next h =>
      rw [hsequence] at h
      cases h
    · next h =>
      rw [hsequence] at h
      cases h

end Utf8

theorem Encoding.decode_toUtf8 (e : Encoding) (t : Text) : e.decode (Text.toUtf8 t) = .ok t := by
  cases e with
  | strict => exact Utf8.decodeFrom_toUtf8 t [] 0
  | lossy => exact congrArg Except.ok (Utf8.decodeLossyFrom_toUtf8 t [])

namespace Text

theorem utf8EncodeChar_of_ascii {c : Char} (h : c.toNat < 0x80) :
    String.utf8EncodeChar c = [UInt8.ofNat c.toNat] := by
  have h : c.val.toNat ≤ 0x7f := Nat.le_of_lt_succ h
  rw [String.utf8EncodeChar]
  simp only [h, if_true]
  rfl

/-- Octets below 0x80 encode nothing but ASCII. -/
theorem le_of_mem_utf8EncodeChar {c : Char} (h : 0x80 ≤ c.toNat) {b : UInt8}
    (hb : b ∈ String.utf8EncodeChar c) : 0x80 ≤ b.toNat := by
  have hv : c.val.toNat < 0xd800 ∨ 0xdfff < c.val.toNat ∧ c.val.toNat < 0x110000 := c.valid
  have h : ¬c.val.toNat ≤ 0x7f := Nat.not_le.2 h
  rw [String.utf8EncodeChar] at hb
  simp only [h, if_false] at hb
  split at hb
  · simp only [List.mem_cons, List.not_mem_nil, or_false] at hb
    rcases hb with rfl | rfl <;> rw [UInt8.toNat_ofNat'] <;> omega
  split at hb
  · simp only [List.mem_cons, List.not_mem_nil, or_false] at hb
    rcases hb with rfl | rfl | rfl <;> rw [UInt8.toNat_ofNat'] <;> omega
  · simp only [List.mem_cons, List.not_mem_nil, or_false] at hb
    rcases hb with rfl | rfl | rfl | rfl <;> rw [UInt8.toNat_ofNat'] <;> omega

/-- An octet of ASCII occurs among the octets of a text only where its character does. -/
theorem mem_of_mem_toUtf8 {t : Text} {n : Nat} (hn : n < 0x80) (h : UInt8.ofNat n ∈ t.toUtf8) :
    Char.ofNat n ∈ t := by
  obtain ⟨c, hc, hb⟩ := List.mem_flatMap.1 h
  have hsize : (UInt8.ofNat n).toNat = n := by
    rw [UInt8.toNat_ofNat']
    omega
  by_cases hascii : c.toNat < 0x80
  · rw [utf8EncodeChar_of_ascii hascii, List.mem_singleton, ← UInt8.toNat_inj, hsize,
      UInt8.toNat_ofNat', Nat.mod_eq_of_lt (by omega)] at hb
    rwa [hb, Char.ofNat_toNat]
  · have := le_of_mem_utf8EncodeChar (Nat.le_of_not_lt hascii) hb
    omega

end Text
end ReplayLog
