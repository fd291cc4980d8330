import ReplayLog.Proofs.PatternCut

/-! # First matches

A text without a match is in one piece. Any other text is parted at its first match into what stands
before it and what is left behind it, in one way only, and the pieces of a cut are what these
partings leave from left to right. -/
namespace ReplayLog

namespace Step

/-- A match inside a text is there whatever follows the text. -/
theorem isSome_follow_append {steps : List Step} {t : Text} (h : (follow steps t).isSome = true)
    (more : Text) : (follow steps (t ++ more)).isSome = true := by
  fun_induction follow steps t generalizing more with
  | case1 t => rfl
  | case2 p steps c t hp ih =>
    rw [List.cons_append, follow, if_pos hp]
    exact ih h more
  | case3 => cases h
  | case4 => cases h
  | case5 p steps t ih =>
    rw [follow, List.dropWhile_append]
    split
    · next hempty =>
      have hmore := ih h (more.dropWhile p)
      rwa [List.isEmpty_iff.1 hempty] at hmore
    · exact ih h more

end Step

namespace Pattern

variable {ps : List Pattern} {t before rest piece : Text}

theorem rest?_eq_none_of_append {p : Pattern} {more : Text} (h : p.rest? (t ++ more) = none) :
    p.rest? t = none := by
  cases t with
  | nil => rfl
  | cons c t =>
    rw [List.cons_append, rest?] at h
    rw [rest?]
    split
    · next hc =>
      rw [if_pos hc] at h
      by_contra hsome
      have hmore := Step.isSome_follow_append (Option.isSome_iff_ne_none.2 hsome) more
      rw [h] at hmore
      cases hmore
    · rfl

theorem Free.of_append_right {front : Text} (h : Free ps (front ++ t)) : Free ps t := by
  rw [free_iff] at h ⊢
  exact fun s hs => h s (hs.trans (List.suffix_append _ _))

theorem Free.of_subset {qs : List Pattern} (hsub : ps ⊆ qs) (h : Free qs t) : Free ps t := by
  rw [free_iff] at h ⊢
  exact fun s hs p hp => h s hs p (hsub hp)

/-- The text is parted by its first match of one of the patterns. -/
def FirstMatch (ps : List Pattern) (t before rest : Text) : Prop :=
  ∃ more, t = before ++ more ∧ restOfAny? ps more = some rest ∧
    ∀ s ∈ before.tails, s ≠ [] → restOfAny? ps (s ++ more) = none

/-- The piece reaches from the start of the text to its first match, or to its end. -/
def UpTo (ps : List Pattern) (t piece : Text) : Prop :=
  (∃ rest, FirstMatch ps t piece rest) ∨ Free ps t ∧ piece = t

namespace FirstMatch

theorem cut_eq (h : FirstMatch ps t before rest) : cut ps t = before :: cut ps rest := by
  obtain ⟨more, rfl, hmatch, hnone⟩ := h
  exact cut_append_of_rest (fun s hs => hnone s ((List.mem_tails _ _).2 hs)) hmatch

theorem free (h : FirstMatch ps t before rest) : Free ps before := by
  obtain ⟨more, -, -, hnone⟩ := h
  refine free_iff.2 fun s hs p hp => ?_
  by_cases hne : s = []
  · rw [hne]
    rfl
  · have hs := restOfAny?_eq_none_iff.1 (hnone s ((List.mem_tails _ _).2 hs) hne) p hp
    exact rest?_eq_none_of_append hs

theorem not_free (h : FirstMatch ps t before rest) : ¬ Free ps t := by
  obtain ⟨more, rfl, hmatch, -⟩ := h
  intro hfree
  rw [hfree more ((List.mem_tails _ _).2 (List.suffix_append _ _))] at hmatch
  cases hmatch

/-- There is only one first match. -/
theorem unique {before' rest' : Text} (h : FirstMatch ps t before rest)
    (h' : FirstMatch ps t before' rest') : before = before' ∧ rest = rest' := by
  have hcut := h.cut_eq
  rw [h'.cut_eq] at hcut
  obtain rfl := (List.cons.inj hcut).1
  obtain ⟨more, rfl, hmatch, -⟩ := h
  obtain ⟨more', hmore, hmatch', -⟩ := h'
  rw [← List.append_cancel_left hmore, hmatch] at hmatch'
  exact ⟨rfl, Option.some.inj hmatch'⟩

end FirstMatch

/-- A literal that does not overlap itself is the first match exactly behind a text without it. -/
theorem firstMatch_literal_iff {c : Char} {l : String}
    (hl : ∀ k ∈ List.range l.length, ¬l.toList.drop k <+: c :: l.toList) :
    FirstMatch [ofChar c (Step.literal l)] t before rest ↔
      t = before ++ ((c :: l.toList) ++ rest) ∧ Free [ofChar c (Step.literal l)] before := by
  constructor
  · intro h
    refine ⟨?_, h.free⟩
    obtain ⟨more, rfl, hmatch, -⟩ := h
    rw [restOfAny?_literal_eq_some_iff.1 hmatch]
  · rintro ⟨rfl, hfree⟩
    refine ⟨_, rfl, restOfAny?_literal_eq_some_iff.2 rfl, fun s hs => ?_⟩
    exact restOfAny?_before_literal hl hfree rest s ((List.mem_tails _ _).1 hs)

/-- A text without a first match has no match at all. -/
theorem free_or_firstMatch (ps : List Pattern) (t : Text) :
    Free ps t ∨ ∃ before rest, FirstMatch ps t before rest := by
  induction t with
  | nil => exact .inl (free_nil ps)
  | cons c t ih =>
    cases hmatch : restOfAny? ps (c :: t) with
    | some rest =>
      refine .inr ⟨[], rest, c :: t, rfl, hmatch, ?_⟩
      intro s hs hne
      exact absurd (List.mem_singleton.1 hs) hne
    | none =>
      rcases ih with hfree | ⟨before, rest, more, rfl, hmore, hnone⟩
      · exact .inl (free_cons.2 ⟨hmatch, hfree⟩)
      · refine .inr ⟨c :: before, rest, more, rfl, hmore, ?_⟩
        rw [List.tails_cons]
        exact List.forall_mem_cons.2 ⟨fun _ => hmatch, hnone⟩

theorem exists_upTo (ps : List Pattern) (t : Text) : ∃ piece, UpTo ps t piece := by
  rcases free_or_firstMatch ps t with hfree | ⟨before, rest, h⟩
  · exact ⟨t, .inr ⟨hfree, rfl⟩⟩
  · exact ⟨before, .inl ⟨rest, h⟩⟩

theorem UpTo.exists_cut_eq (h : UpTo ps t piece) : ∃ pieces, cut ps t = piece :: pieces := by
  rcases h with ⟨rest, h⟩ | ⟨hfree, rfl⟩
  · exact ⟨_, h.cut_eq⟩
  · exact ⟨[], cut_eq_of_free hfree⟩

theorem UpTo.isPrefix (h : UpTo ps t piece) : piece <+: t := by
  rcases h with ⟨rest, more, rfl, -⟩ | ⟨-, rfl⟩
  · exact List.prefix_append _ _
  · exact List.prefix_refl _

end Pattern
end ReplayLog
