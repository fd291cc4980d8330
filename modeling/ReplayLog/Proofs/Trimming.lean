import Mathlib.Data.List.Basic
import Mathlib.Data.List.TakeWhile
import ReplayLog.Text.Blank

/-! # Trimming -/
namespace ReplayLog

/-- What is decided for each character of a text holds for all of them. -/
theorem forall_mem_of_all {t : Text} {P : Char → Prop} [DecidablePred P]
    (h : t.all (fun c => decide (P c)) = true) : ∀ c ∈ t, P c := by
  intro c hc
  exact of_decide_eq_true (List.all_eq_true.1 h c hc)

namespace Text

/-- What a class holds is not dropped beyond a character outside the class. -/
theorem dropWhile_append_cons {p : Char → Bool} {x : Char} (hx : p x = false) (t more : Text) :
    (t ++ x :: more).dropWhile p = t.dropWhile p ++ x :: more := by
  induction t with
  | nil => exact List.dropWhile_cons_of_neg (by simp [hx])
  | cons c t ih => cases hc : p c <;> simp [hc, ih]

/-- Nothing is left of a text exactly if all of it is blank. -/
theorem trim_eq_nil_iff {t : Text} : t.trim = [] ↔ t.isBlankText = true := by
  rw [trim, trimEnd, List.reverse_eq_nil_iff, List.dropWhile_eq_nil_iff, isBlankText,
    List.all_eq_true]
  constructor
  · intro h c hc
    by_contra hblank
    have hmem : c ∈ t.trimStart := by
      rw [← List.takeWhile_append_dropWhile (p := isBlank) (l := t), List.mem_append] at hc
      exact hc.resolve_left fun hm => hblank (List.mem_takeWhile_imp hm)
    exact hblank (h c (List.mem_reverse.2 hmem))
  · intro h c hc
    exact h c (List.dropWhile_subset _ (List.mem_reverse.1 hc))

theorem isBlank_of_getLast?_trim {t : Text} {c : Char} (h : t.trim.getLast? = some c) :
    isBlank c = false := by
  rw [trim, trimEnd, List.getLast?_reverse] at h
  have hfirst := List.head?_dropWhile_not isBlank t.trimStart.reverse
  rw [h] at hfirst
  simpa using hfirst

theorem isBlankText_of_getLast? {t : Text} {c : Char} (h : t.getLast? = some c)
    (hc : isBlank c = false) : t.isBlankText = false :=
  List.all_eq_false.2 ⟨c, List.mem_of_getLast? h, by rw [hc]; decide⟩

/-- What is left of a text once it is trimmed is not blank. -/
theorem isBlankText_trim {t : Text} : t.trim.isBlankText = false ↔ t.trim ≠ [] := by
  rw [← Bool.not_eq_true, not_iff_not]
  constructor
  · intro h
    by_contra hne
    obtain ⟨c, hc⟩ := Option.ne_none_iff_exists'.1 (mt List.getLast?_eq_none_iff.1 hne)
    rw [isBlankText_of_getLast? hc (isBlank_of_getLast?_trim hc)] at h
    cases h
  · intro h
    rw [h]
    rfl

theorem trim_of_not_blank {t : Text} (h : ∀ c ∈ t, isBlank c = false) : t.trim = t := by
  have keep : ∀ s : Text, (∀ c ∈ s, isBlank c = false) → s.dropWhile isBlank = s := by
    intro s hs
    cases s with
    | nil => rfl
    | cons c s => rw [List.dropWhile_cons_of_neg (by simp [hs c List.mem_cons_self])]
  have hreverse : ∀ c ∈ t.reverse, isBlank c = false := fun c hc => h c (List.mem_reverse.1 hc)
  rw [trim, trimStart, keep t h, trimEnd, keep _ hreverse, List.reverse_reverse]

theorem trimStart_eq_self {t : Text} (h : t.trim = t) : t.trimStart = t := by
  have hend : t.trim.length ≤ t.trimStart.length := by
    rw [trim, trimEnd, List.length_reverse, ← @List.length_reverse _ t.trimStart]
    exact (List.dropWhile_sublist _).length_le
  rw [h] at hend
  exact (List.dropWhile_sublist _).eq_of_length_le hend

theorem trimEnd_eq_self {t : Text} (h : t.trim = t) : t.trimEnd = t := by
  rwa [trim, trimStart_eq_self h] at h

theorem trimStart_append {t : Text} (hne : t ≠ []) (h : t.trim = t) (more : Text) :
    trimStart (t ++ more) = t ++ more := by
  have hstart := trimStart_eq_self h
  cases t with
  | nil => exact absurd rfl hne
  | cons c t =>
    have hc : ¬isBlank c = true := List.dropWhile_eq_self_iff.1 hstart (Nat.succ_pos _)
    rw [List.cons_append, trimStart, List.dropWhile_cons_of_neg hc]

/-- Trimming the end does not reach past a character that is not blank. -/
theorem trimEnd_append_cons {x : Char} (hx : isBlank x = false) (s t : Text) :
    trimEnd (s ++ x :: t) = s ++ x :: trimEnd t := by
  rw [trimEnd, trimEnd, List.reverse_append, List.reverse_cons, List.append_assoc,
    List.singleton_append, dropWhile_append_cons hx, List.reverse_append, List.reverse_cons,
    List.reverse_reverse, List.append_assoc, List.singleton_append]

theorem trimEnd_append_blank {c : Char} (hc : isBlank c = true) (t : Text) :
    trimEnd (t ++ [c]) = trimEnd t := by
  rw [trimEnd, List.reverse_append, List.reverse_singleton, List.singleton_append,
    List.dropWhile_cons_of_pos hc, trimEnd]

/-- Blanks around a text are trimmed with the blanks of its own. -/
theorem trim_of_blanks {before after : Text} (hbefore : ∀ c ∈ before, isBlank c = true)
    (hafter : ∀ c ∈ after, isBlank c = true) (t : Text) : trim (before ++ t ++ after) = trim t := by
  have hend : ∀ s : Text, trimEnd (s ++ after) = trimEnd s := by
    intro s
    rw [trimEnd, List.reverse_append,
      List.dropWhile_append_of_pos fun c hc => hafter c (List.mem_reverse.1 hc), trimEnd]
  rw [trim, trimStart, List.append_assoc, List.dropWhile_append_of_pos hbefore,
    List.dropWhile_append]
  split
  · next hnil =>
    have hblank : trimStart t = [] := by rw [trimStart, List.isEmpty_iff.1 hnil]
    have hdropped : after.dropWhile isBlank = [] := List.dropWhile_eq_nil_iff.2 hafter
    rw [hdropped, trim, hblank]
  · exact hend _

theorem trimEnd_isPrefix (t : Text) : t.trimEnd <+: t := by
  rw [trimEnd, ← List.reverse_suffix, List.reverse_reverse]
  exact List.dropWhile_suffix isBlank

theorem trimStart_ne_nil {t : Text} (h : t.isBlankText = false) : t.trimStart ≠ [] := by
  intro hnil
  rw [trimStart, List.dropWhile_eq_nil_iff, ← List.all_eq_true, ← isBlankText, h] at hnil
  cases hnil

/-- Trimming the start does not reach past a text that is not blank. -/
theorem trimStart_append_of_not_blank {t : Text} (h : t.isBlankText = false) (more : Text) :
    trimStart (t ++ more) = t.trimStart ++ more := by
  have hne := trimStart_ne_nil h
  rw [trimStart] at hne ⊢
  rw [List.dropWhile_append, if_neg (by simpa using hne), trimStart]

/-- Trimming the start of a text that is not blank leaves its end. -/
theorem getLast?_trimStart {t : Text} (h : t.isBlankText = false) :
    t.trimStart.getLast? = t.getLast? := by
  have hsplit : t.takeWhile isBlank ++ t.trimStart = t := List.takeWhile_append_dropWhile
  rw [← List.getLast?_append_of_ne_nil (t.takeWhile isBlank) (trimStart_ne_nil h), hsplit]

/-- A text whose last character is not blank is trimmed at its start only. -/
theorem trim_eq_trimStart {t : Text} {c : Char} (hlast : t.getLast? = some c)
    (hc : isBlank c = false) : t.trim = t.trimStart := by
  obtain ⟨t, rfl⟩ := List.getLast?_eq_some_iff.1 hlast
  rw [trim, trimStart, dropWhile_append_cons hc, trimEnd_append_cons hc]
  rfl

end Text
end ReplayLog
