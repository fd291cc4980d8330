import ReplayLog.Entry.Extract
import ReplayLog.Proofs.PatternCut
import ReplayLog.Proofs.StampPrinting
import ReplayLog.Proofs.Trimming

/-! # Printed parts of entries

Words are cut apart at the blanks between them, and numbers that stand in entries are read as they
were printed. -/
namespace ReplayLog

theorem padded_not_blank (width n : Nat) : ∀ c ∈ padded width n, isBlank c = false :=
  fun _ hc => isBlank_of_isDigit (isDigit_of_mem_padded hc)

theorem print_not_blank (n : Int) : ∀ c ∈ Integer.print n, isBlank c = false := by
  intro c hc
  rcases Integer.eq_or_isDigit_of_mem_print hc with rfl | hdigit
  · decide
  · exact isBlank_of_isDigit hdigit

theorem not_blank_of_any {t : Text} (h : t.any isBlank = false) : ∀ c ∈ t, isBlank c = false := by
  intro c hc
  simpa using List.any_eq_false.1 h c hc

theorem cut_blanks_words {ws : List Text} (hne : ws ≠ [])
    (h : ∀ w ∈ ws, w ≠ [] ∧ ∀ c ∈ w, isBlank c = false) (t : Text) :
    Pattern.cut [.blanks] ([' '].intercalate ws ++ ' ' :: t) =
      ws ++ Pattern.cut [.blanks] t.trimStart := by
  have hmatch (t : Text) : Pattern.restOfAny? [.blanks] (' ' :: t) = some t.trimStart := rfl
  have hfirst {w : Text} (hw : ∀ c ∈ w, isBlank c = false) :
      ∀ c ∈ w, ∀ p ∈ [Pattern.blanks], p.first c = false := by
    intro c hc p hp
    rw [List.mem_singleton.1 hp]
    exact hw c hc
  induction ws with
  | nil => exact absurd rfl hne
  | cons w ws ih =>
    obtain ⟨-, hw⟩ := h w List.mem_cons_self
    cases ws with
    | nil =>
      rw [List.intercalate_singleton, Pattern.cut_of_not_first (hfirst hw) (hmatch t)]
      rfl
    | cons w' ws =>
      have hrest := ih (List.cons_ne_nil _ _) fun w hw => h w (List.mem_cons_of_mem _ hw)
      obtain ⟨hne', hw'⟩ := h w' (by simp)
      have htrim : Text.trimStart ([' '].intercalate (w' :: ws) ++ ' ' :: t) =
          [' '].intercalate (w' :: ws) ++ ' ' :: t := by
        obtain ⟨c, cs, rfl⟩ := List.exists_cons_of_ne_nil hne'
        have hc : isBlank c = false := hw' c List.mem_cons_self
        cases ws with
        | nil =>
          rw [List.intercalate_singleton, List.cons_append, Text.trimStart,
            List.dropWhile_cons_of_neg (by simp [hc])]
        | cons w'' ws =>
          rw [List.intercalate_cons_cons, List.cons_append, List.cons_append, List.cons_append,
            Text.trimStart, List.dropWhile_cons_of_neg (by simp [hc])]
      rw [List.intercalate_cons_cons, List.append_assoc, List.append_assoc, List.singleton_append,
        Pattern.cut_of_not_first (hfirst hw) (hmatch _), htrim, hrest]
      rfl

/-- A printed integer holds neither of the characters that part names and values. -/
theorem print_not_first (n : Int) :
    ∀ c ∈ Integer.print n, ∀ p ∈ Pattern.keyValue, p.first c = false := by
  intro c hc p hp
  have hne : c ≠ ',' ∧ c ≠ '=' := by
    rcases Integer.eq_or_isDigit_of_mem_print hc with rfl | hdigit
    · decide
    · exact ⟨ne_of_isDigit hdigit (by decide), ne_of_isDigit hdigit (by decide)⟩
  rcases List.mem_pair.1 hp with rfl | rfl
  · exact beq_false_of_ne hne.1
  · exact beq_false_of_ne hne.2

namespace Step

theorem follow_padded (width n : Nat) (t : Text) :
    Step.follow (Step.digits width) (padded width n ++ t) = some t := by
  have hdigits : ∀ c ∈ padded width n, isDecimalDigit c = true :=
    fun c hc => isDecimalDigit_of_isDigit (isDigit_of_mem_padded hc)
  have := Step.follow_digits hdigits t
  rwa [length_padded] at this

end Step

theorem padded_four {n : Nat} (h : 2000 ≤ n ∧ n ≤ 2099) : padded 4 n = "20".toList ++ padded 2 n := by
  have hcentury : n / 10 / 10 = 20 := by omega
  have htwenty : padded 2 20 = "20".toList := by decide
  have hsplit : padded 4 n = padded 2 (n / 10 / 10) ++ padded 2 n := by simp [padded]
  rw [hsplit, hcentury, htwenty]

namespace Extract

theorem integer_print {n : Int} (h : Span.int64.holds n = true) (name : Text) :
    Extract.integer name (Integer.print n) = .ok n := by
  rw [Extract.integer, Text.trim_of_not_blank (print_not_blank _), Integer.read_print h]
  rfl

theorem millis_print {n : Int} (h : Span.int64.holds (n * 1000) = true) (name : Text) :
    Extract.millis name (Integer.print n) = .ok (n * 1000) := by
  have hspan : Span.int64.holds n = true := by
    rw [Span.holds_iff, Span.int64] at h ⊢
    dsimp only at h ⊢
    omega
  have hmultiply : Span.int64.multiply n 1000 = .ok (n * 1000) := by
    rw [Span.multiply, if_pos h]
  rw [Extract.millis, integer_print hspan]
  change (Span.int64.multiply n 1000).mapError _ = _
  rw [hmultiply]
  rfl

end Extract

end ReplayLog
