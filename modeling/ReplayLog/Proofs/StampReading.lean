import Mathlib.Data.List.Induction
import Mathlib.Data.List.TakeWhile
import ReplayLog.Proofs.DecimalPrinting
import ReplayLog.Text.DecimalDigit
import ReplayLog.Time.Stamp

/-! # Steps of the stamp reader

A step of the reader takes the digits at the start of what is left. ASCII digits are taken as their
number. Of other decimal digits none is taken, so that they stand where the next step begins. -/
namespace ReplayLog

theorem isDigit_iff {c : Char} : c.isDigit = true ↔ 48 ≤ c.toNat ∧ c.toNat ≤ 57 := by
  simp only [Char.isDigit, ge_iff_le, Bool.and_eq_true, decide_eq_true_eq, UInt32.le_iff_toNat_le]
  rfl

theorem isBlank_of_isDecimalDigit {c : Char} (h : isDecimalDigit c = true) : isBlank c = false := by
  have hall : ∀ n ∈ [0x09, 0x0A, 0x0B, 0x0C, 0x0D, 0x20, 0x85, 0xA0, 0x1680, 0x2000, 0x2001, 0x2002,
      0x2003, 0x2004, 0x2005, 0x2006, 0x2007, 0x2008, 0x2009, 0x200A, 0x2028, 0x2029, 0x202F,
      0x205F, 0x3000], isDecimalDigit (Char.ofNat n) = false := by
    decide
  by_contra hblank
  have hmem := hall c.toNat (by
    simp only [isBlank, Bool.not_eq_false, Bool.or_eq_true, Bool.and_eq_true, decide_eq_true_eq,
      beq_iff_eq] at hblank
    simp only [List.mem_cons, List.not_mem_nil, or_false]
    omega)
  rw [Char.ofNat_toNat, h] at hmem
  cases hmem

theorem isBlank_of_isDigit {c : Char} (h : c.isDigit = true) : isBlank c = false :=
  isBlank_of_isDecimalDigit (isDecimalDigit_of_isDigit h)

theorem digitsValue_lt {t : Text} (h : ∀ c ∈ t, c.isDigit = true) :
    digitsValue t < 10 ^ t.length := by
  induction t using List.reverseRecOn with
  | nil => decide
  | append_singleton t c ih =>
    have hfront := ih fun d hd => h d (List.mem_append_left _ hd)
    have hc := isDigit_iff.1 (h c (by simp))
    have hvalue : digitValue c ≤ 9 := by
      rw [digitValue]
      omega
    rw [digitsValue_concat, List.length_append, List.length_singleton, Nat.pow_succ]
    omega

structure IsRun (p : Char → Bool) (width : Nat) (t : Text) : Prop where
  length_eq : t.length = width
  forall_mem : ∀ c ∈ t, p c = true

namespace IsRun

variable {p : Char → Bool} {width : Nat} {t : Text}

theorem ne_nil (h : IsRun p (width + 1) t) : t ≠ [] := by
  rintro rfl
  exact absurd h.length_eq (by simp)

theorem decimal (h : IsRun Char.isDigit width t) : IsRun isDecimalDigit width t :=
  ⟨h.length_eq, fun c hc => isDecimalDigit_of_isDigit (h.forall_mem c hc)⟩

theorem not_mem (h : IsRun p width t) {x : Char} (hx : p x = false) : x ∉ t := by
  intro hmem
  rw [h.forall_mem x hmem] at hx
  cases hx

theorem not_blank (h : IsRun isDecimalDigit width t) : ∀ c ∈ t, isBlank c = false :=
  fun c hc => isBlank_of_isDecimalDigit (h.forall_mem c hc)

theorem head?_not_blank (h : IsRun isDecimalDigit (width + 1) t) :
    t.head?.map isBlank = some false := by
  cases t with
  | nil => exact absurd rfl h.ne_nil
  | cons c t => simp [isBlank_of_isDecimalDigit (h.forall_mem c (by simp))]

theorem digitsValue_lt (h : IsRun Char.isDigit width t) : digitsValue t < 10 ^ width :=
  h.length_eq ▸ ReplayLog.digitsValue_lt h.forall_mem

theorem padded {n : Nat} : IsRun Char.isDigit width (padded width n) :=
  ⟨length_padded width n, fun _ hc => isDigit_of_mem_padded hc⟩

end IsRun

namespace StampReader

variable {α β : Type} {t rest part : Text}

theorem bind_of_ok {x : StampReader α} {t t' : Text} {a : α} (h : x t = .ok (a, t'))
    (f : α → StampReader β) : (x >>= f) t = f a t' := by
  change (x t >>= fun p => f p.1 p.2) = _
  rw [h]
  rfl

theorem literal_append {l : String} (hl : Text.byteSize l.toList = l.utf8ByteSize) (t : Text) :
    literal l (l.toList ++ t) = .ok ((), t) := by
  have hsize : ¬Text.byteSize (l.toList ++ t) < l.utf8ByteSize := by
    rw [Text.byteSize_append, hl]
    omega
  have hfront : l.toList.isPrefixOf (l.toList ++ t) = true :=
    List.isPrefixOf_iff_prefix.2 (List.prefix_append _ _)
  rw [literal, if_neg hsize, if_pos hfront, ← String.length_toList, List.drop_left]

theorem bind_of_error {x : StampReader α} {fault : FormFault} (h : x t = .error fault)
    (f : α → StampReader β) : (x >>= f) t = .error fault := by
  change (x t >>= fun p => f p.1 p.2) = _
  rw [h]
  rfl

theorem exists_of_bind {x : StampReader α} {f : α → StampReader β} {r : β × Text}
    (h : (x >>= f) t = .ok r) : ∃ a t', x t = .ok (a, t') ∧ f a t' = .ok r := by
  cases hx : x t with
  | error fault =>
    rw [bind_of_error hx] at h
    cases h
  | ok p => exact ⟨p.1, p.2, rfl, by rwa [bind_of_ok hx] at h⟩

section Reading

theorem literal_colon (t : Text) : literal ":" (':' :: t) = .ok ((), t) :=
  literal_append (by decide) t

theorem literal_dash (t : Text) : literal "-" ('-' :: t) = .ok ((), t) :=
  literal_append (by decide) t

theorem blanks_space {t : Text} (h : blanks t = .ok ((), t)) : blanks (' ' :: t) = .ok ((), t) := h

theorem blanks_of_head? {letters : Text} (h : letters.head?.map isBlank = some false) (rest : Text) :
    blanks (letters ++ rest) = .ok ((), letters ++ rest) := by
  cases letters with
  | nil => cases h
  | cons c letters =>
    have hc : isBlank c = false := by simpa using h
    rw [blanks, Text.trimStart, List.cons_append, List.dropWhile_cons_of_neg (by simp [hc])]

/-- A run of digits is taken as a whole if it has as many as may be, or no digit follows it. -/
theorem digits_of_run {most : Nat} {run : Text} (rest : Text) (hne : run ≠ [])
    (hrun : ∀ c ∈ run, c.isDigit = true)
    (hmost : run.length = most ∨ run.length ≤ most ∧ ∀ c ∈ rest.head?, c.isDigit = false)
    (hspan : Span.int64.holds (digitsValue run) = true) :
    digits most (run ++ rest) = .ok (digitsValue run, rest) := by
  have htake : ((run ++ rest).take most).takeWhile Char.isDigit = run := by
    rcases hmost with rfl | ⟨hle, hstop⟩
    · rw [List.take_left, List.takeWhile_eq_self_iff.2 hrun]
    · have hnone : (rest.take (most - run.length)).takeWhile Char.isDigit = [] := by
        cases rest with
        | nil => simp
        | cons c rest =>
          cases most - run.length with
          | zero => rfl
          | succ k => simp [hstop c rfl]
      rw [List.take_append, List.take_of_length_le hle, List.takeWhile_append_of_pos hrun, hnone,
        List.append_nil]
  cases run with
  | nil => exact absurd rfl hne
  | cons c run =>
    rw [List.cons_append] at htake ⊢
    rw [digits, if_pos (hrun c List.mem_cons_self)]
    dsimp only
    rw [htake, if_pos hspan, ← List.cons_append, List.drop_left]

theorem holds_of_lt {n : Nat} (h : n < 1000000000) : Span.int64.holds n = true := by
  rw [Span.holds_iff, Span.int64]
  dsimp only
  omega

theorem blanks_run {width : Nat} (h : IsRun isDecimalDigit (width + 1) part) (rest : Text) :
    blanks (part ++ rest) = .ok ((), part ++ rest) :=
  blanks_of_head? h.head?_not_blank rest

theorem digits_run {width : Nat} (h : IsRun Char.isDigit (width + 1) part) (hwidth : width < 9)
    (rest : Text) : digits (width + 1) (part ++ rest) = .ok (digitsValue part, rest) := by
  have hlt := h.digitsValue_lt
  have hle : 10 ^ (width + 1) ≤ 10 ^ 9 := Nat.pow_le_pow_right (by omega) hwidth
  exact digits_of_run rest h.ne_nil h.forall_mem (.inl h.length_eq) (holds_of_lt (by omega))

theorem field_run (h : IsRun Char.isDigit 2 part) (low high : Nat) (rest : Text) :
    field low high (part ++ rest) =
      if low ≤ digitsValue part ∧ digitsValue part ≤ high then .ok (digitsValue part, rest)
      else .error .outOfRange := by
  rw [field, bind_of_ok (blanks_run h.decimal rest), bind_of_ok (digits_run h (by omega) rest)]
  split <;> rfl

theorem year_run (h : IsRun Char.isDigit 4 part) (rest : Text) :
    year (part ++ rest) = .ok ((digitsValue part : Int), rest) := by
  have hlt := h.digitsValue_lt
  have hnumber : yearNumber (part ++ rest) = .ok ((digitsValue part : Int), rest) := by
    obtain ⟨c, cs, rfl⟩ := List.exists_cons_of_ne_nil h.ne_nil
    have hc : c.isDigit = true := h.forall_mem c (by simp)
    have hdigits := digits_run h (by omega) rest
    rw [List.cons_append] at hdigits ⊢
    unfold yearNumber
    split
    · next heq => exact absurd (List.cons.inj heq).1 (ne_of_isDigit hc (by decide))
    · next heq => exact absurd (List.cons.inj heq).1 (ne_of_isDigit hc (by decide))
    · rw [hdigits]
      rfl
  have hspan : Span.int32.holds (digitsValue part : Int) = true := by
    rw [Span.holds_iff, Span.int32]
    dsimp only
    omega
  rw [year, bind_of_ok (blanks_run h.decimal rest), bind_of_ok hnumber, if_pos hspan]
  rfl

/-- Any number of digits is taken, and nine of them count. -/
theorem fraction_run (hne : part ≠ []) (h : ∀ c ∈ part, c.isDigit = true) :
    fraction ('.' :: part) = .ok (digitsValue ((part.take 9).rightpad 9 '0') / 1000, []) := by
  have htaken : ∀ c ∈ part.take 9, c.isDigit = true := fun c hc => h c (List.take_subset _ _ hc)
  have hlt := digitsValue_lt htaken
  have hle : 10 ^ (part.take 9).length ≤ 10 ^ 9 :=
    Nat.pow_le_pow_right (by omega) (List.length_take_le 9 part)
  have hmost : (part.take 9).length = 9 ∨
      (part.take 9).length ≤ 9 ∧ ∀ c ∈ (part.drop 9).head?, c.isDigit = false := by
    rcases Nat.lt_or_ge part.length 9 with hlt | hge
    · exact .inr ⟨List.length_take_le 9 part, by simp [List.drop_eq_nil_iff.2 hlt.le]⟩
    · exact .inl (List.length_take_of_le hge)
  have hdigits := digits_of_run (part.drop 9) (by simpa using hne) htaken hmost
    (holds_of_lt (by omega))
  rw [List.take_append_drop] at hdigits
  rw [fraction, hdigits]
  dsimp only
  rw [List.takeWhile_eq_self_iff.2 htaken, List.dropWhile_eq_nil_iff.2 h]

end Reading

section Inversion

theorem eq_of_literal {l : String} (h : literal l t = .ok ((), rest)) : t = l.toList ++ rest := by
  rw [literal] at h
  split at h
  · cases h
  · split at h
    · next hfront =>
      cases h
      rw [← String.length_toList]
      exact List.prefix_iff_eq_append.1 (List.isPrefixOf_iff_prefix.1 hfront) |>.symm
    · cases h

/-- Behind as many characters as may be taken, what is left begins where the digits end. -/
theorem left_of_digits {most n : Nat} {left : Text} (hlength : part.length = most)
    (h : digits most (part ++ rest) = .ok (n, left)) :
    left = part.dropWhile Char.isDigit ++ rest := by
  have htake : (part ++ rest).take most = part := hlength ▸ List.take_left
  have hdrop : (part ++ rest).drop (part.takeWhile Char.isDigit).length =
      part.dropWhile Char.isDigit ++ rest := by
    conv_lhs => rw [← List.takeWhile_append_dropWhile (p := Char.isDigit) (l := part),
      List.append_assoc, List.takeWhile_append_dropWhile]
    exact List.drop_left
  generalize hpart : part ++ rest = whole at h
  cases whole with
  | nil => cases h
  | cons c whole =>
    rw [digits, ← hpart, htake] at h
    split at h
    · dsimp only at h
      split at h
      · cases h
        exact hdrop
      · cases h
    · cases h

variable {low high n : Nat} {left : Text} {c : Char}

theorem left_of_field (hpart : IsRun isDecimalDigit 2 part)
    (h : field low high (part ++ rest) = .ok (n, left)) :
    left = part.dropWhile Char.isDigit ++ rest := by
  rw [field, bind_of_ok (blanks_run hpart rest)] at h
  obtain ⟨m, t, hdigits, h⟩ := exists_of_bind h
  split at h <;> cases h
  exact left_of_digits hpart.length_eq hdigits

theorem left_of_year {y : Int} (hpart : IsRun isDecimalDigit 4 part)
    (h : year (part ++ rest) = .ok (y, left)) : left = part.dropWhile Char.isDigit ++ rest := by
  rw [year, bind_of_ok (blanks_run hpart rest)] at h
  obtain ⟨m, t, hnumber, h⟩ := exists_of_bind h
  split at h <;> cases h
  obtain ⟨c, cs, rfl⟩ := List.exists_cons_of_ne_nil hpart.ne_nil
  have hc : isDecimalDigit c = true := hpart.forall_mem c (by simp)
  have hdash : isDecimalDigit '-' = false := by decide
  have hplus : isDecimalDigit '+' = false := by decide
  unfold yearNumber at hnumber
  split at hnumber
  · next heq =>
    rw [(List.cons.inj heq).1, hdash] at hc
    cases hc
  · next heq =>
    rw [(List.cons.inj heq).1, hplus] at hc
    cases hc
  · cases hdigits : digits 4 (c :: cs ++ rest) with
    | error fault =>
      rw [hdigits] at hnumber
      cases hnumber
    | ok p =>
      rw [hdigits] at hnumber
      cases hnumber
      exact left_of_digits hpart.length_eq hdigits

theorem forall_of_dropWhile_eq_nil (h : part.dropWhile Char.isDigit = []) :
    ∀ c ∈ part, c.isDigit = true := fun c hc => List.dropWhile_eq_nil_iff.1 h c hc

/-- Where a mark that is no digit follows, all digits before it have been taken. -/
theorem isRun_of_left {width : Nat} {x : Char} (hx : isDecimalDigit x = false)
    (hpart : IsRun isDecimalDigit width part)
    (h : part.dropWhile Char.isDigit ++ x :: rest = x :: left) :
    IsRun Char.isDigit width part ∧ rest = left := by
  cases hmore : part.dropWhile Char.isDigit with
  | nil =>
    rw [hmore] at h
    exact ⟨⟨hpart.length_eq, forall_of_dropWhile_eq_nil hmore⟩, (List.cons.inj h).2⟩
  | cons d more =>
    rw [hmore] at h
    have hd : d ∈ part := List.dropWhile_subset Char.isDigit (hmore ▸ List.mem_cons_self)
    rw [← (List.cons.inj h).1, hpart.forall_mem d hd] at hx
    cases hx

/-- A number with a mark behind it is in ASCII digits, and what is behind the mark is read next. -/
theorem of_field_mark {f : Nat → StampReader α} {r : α × Text} {l : String} {x : Char}
    (hl : l.toList = [x]) (hx : isDecimalDigit x = false) (hpart : IsRun isDecimalDigit 2 part)
    (h : (field low high >>= fun n => literal l >>= fun _ => f n) (part ++ x :: rest) = .ok r) :
    IsRun Char.isDigit 2 part ∧ ∃ n, f n rest = .ok r := by
  obtain ⟨n, left, hfield, h⟩ := exists_of_bind h
  obtain ⟨_, left', hmark, h⟩ := exists_of_bind h
  have hleft := eq_of_literal hmark
  rw [left_of_field hpart hfield, hl] at hleft
  obtain ⟨hascii, rfl⟩ := isRun_of_left hx hpart hleft
  exact ⟨hascii, n, h⟩

theorem of_year_dash {f : Int → StampReader α} {r : α × Text} (hpart : IsRun isDecimalDigit 4 part)
    (h : (year >>= fun y => literal "-" >>= fun _ => f y) (part ++ '-' :: rest) = .ok r) :
    IsRun Char.isDigit 4 part ∧ ∃ y, f y rest = .ok r := by
  obtain ⟨y, left, hyear, h⟩ := exists_of_bind h
  obtain ⟨_, left', hmark, h⟩ := exists_of_bind h
  have hleft := eq_of_literal hmark
  rw [left_of_year hpart hyear] at hleft
  obtain ⟨hascii, rfl⟩ := isRun_of_left (by decide) hpart hleft
  exact ⟨hascii, y, h⟩

/-- A decimal digit that is none of ASCII begins no number. -/
theorem field_of_not_isDigit (hc : isDecimalDigit c = true) (hdigit : c.isDigit = false)
    (t : Text) : field low high (c :: t) = .error .unexpected := by
  have hblanks : blanks ([c] ++ t) = .ok ((), [c] ++ t) :=
    blanks_of_head? (by simp [isBlank_of_isDecimalDigit hc]) t
  have hdigits : digits 2 ([c] ++ t) = .error .unexpected := by
    rw [List.singleton_append, digits, if_neg (by simp [hdigit])]
  exact (bind_of_ok hblanks _).trans (bind_of_error hdigits _)

/-- What is left of decimal digits is nothing, or begins with one that is none of ASCII. -/
theorem dropWhile_cases (hpart : ∀ c ∈ part, isDecimalDigit c = true) :
    part.dropWhile Char.isDigit = [] ∨ ∃ c more, part.dropWhile Char.isDigit = c :: more ∧
      isDecimalDigit c = true ∧ c.isDigit = false := by
  cases hmore : part.dropWhile Char.isDigit with
  | nil => exact .inl rfl
  | cons c more =>
    have hc := hpart c (List.dropWhile_subset Char.isDigit (hmore ▸ List.mem_cons_self))
    have hhead := List.head?_dropWhile_not Char.isDigit part
    rw [hmore] at hhead
    exact .inr ⟨c, more, rfl, hc, by simpa using hhead⟩

theorem eq_nil_of_finish {u : Unit} (h : finish t = .ok (u, rest)) : t = [] := by
  unfold finish at h
  split at h
  · next hempty => exact List.isEmpty_iff.1 hempty
  · cases h

/-- A fraction that ends the text is nothing at all, or a point with digits. -/
theorem cases_of_fraction (h : fraction t = .ok (n, [])) :
    t = [] ∨ ∃ run, t = '.' :: run ∧ run ≠ [] ∧ ∀ c ∈ run, c.isDigit = true := by
  unfold fraction at h
  split at h
  · next run =>
    right
    split at h
    · next hdigits =>
      obtain ⟨-, hnone⟩ := Prod.mk.inj (Except.ok.inj h)
      refine ⟨run, rfl, ?_, forall_of_dropWhile_eq_nil hnone⟩
      rintro rfl
      cases hdigits
    · cases h
  · cases h
    exact .inl rfl

end Inversion

end StampReader
end ReplayLog
