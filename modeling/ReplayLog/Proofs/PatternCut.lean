import Mathlib.Data.List.Infix
import ReplayLog.Proofs.Trimming
import ReplayLog.Text.Pattern

/-! # Cuts at known places

A text that no pattern matches stays free of matches when a character follows that no step takes: a
match that began before it would have to run over it. So a text put together of such parts and of
matches is cut exactly at the matches. -/
namespace ReplayLog

namespace Step

def takes (c : Char) : Step → Bool
  | one p => p c
  | run p => p c

theorem follow_append (steps more : List Step) (t : Text) :
    follow (steps ++ more) t = (follow steps t).bind (follow more) := by
  fun_induction follow steps t with
  | case1 t => rfl
  | case2 p steps c t hp ih => rw [List.cons_append, follow, if_pos hp, ih]
  | case3 p steps c t hp => rw [List.cons_append, follow, if_neg hp, Option.bind_none]
  | case4 p steps => rw [List.cons_append, follow, Option.bind_none]
  | case5 p steps t ih => rw [List.cons_append, follow, ih]

theorem follow_literal (s : String) (t : Text) : follow (literal s) (s.toList ++ t) = some t := by
  rw [literal]
  induction s.toList with
  | nil => rfl
  | cons c cs ih => rw [List.map_cons, List.cons_append, follow, if_pos (by simp), ih]

theorem follow_literal_eq_some_iff {s : String} {t rest : Text} :
    follow (literal s) t = some rest ↔ t = s.toList ++ rest := by
  refine ⟨fun h => ?_, fun h => h ▸ follow_literal s rest⟩
  rw [literal] at h
  generalize s.toList = cs at h ⊢
  induction cs generalizing t with
  | nil => exact Option.some.inj h
  | cons c cs ih =>
    cases t with
    | nil => cases h
    | cons d t =>
      rw [List.map_cons, follow] at h
      split at h
      · next hd => rw [List.cons_append, ← ih h, eq_of_beq hd]
      · cases h

theorem follow_digits {digits : Text} (h : ∀ c ∈ digits, isDecimalDigit c = true) (t : Text) :
    follow (Step.digits digits.length) (digits ++ t) = some t := by
  rw [Step.digits]
  induction digits with
  | nil => rfl
  | cons c cs ih =>
    rw [List.length_cons, List.replicate_succ, List.cons_append, follow,
      if_pos (h c List.mem_cons_self), ih fun c hc => h c (List.mem_cons_of_mem _ hc)]

/-- Steps of single characters do not look behind what they take. -/
theorem follow_append_text {steps : List Step} (hsteps : ∀ p, run p ∉ steps) {t rest : Text}
    (h : follow steps t = some rest) (more : Text) :
    follow steps (t ++ more) = some (rest ++ more) := by
  fun_induction follow steps t with
  | case1 t =>
    cases h
    rfl
  | case2 p steps c t hp ih =>
    rw [List.cons_append, follow, if_pos hp]
    exact ih (fun q hq => hsteps q (List.mem_cons_of_mem _ hq)) h
  | case3 => cases h
  | case4 => cases h
  | case5 p steps t ih => exact absurd List.mem_cons_self (hsteps p)

/-- Steps that do not take a character do not get past it. -/
theorem follow_barrier {steps : List Step} {x : Char} (hx : ∀ step ∈ steps, step.takes x = false)
    {t : Text} (h : follow steps t = none) (more : Text) : follow steps (t ++ x :: more) = none := by
  fun_induction follow steps t with
  | case1 t => cases h
  | case2 p steps c t hp ih =>
    rw [List.cons_append, follow, if_pos hp]
    exact ih (fun step hs => hx step (List.mem_cons_of_mem _ hs)) h
  | case3 p steps c t hp => rw [List.cons_append, follow, if_neg hp]
  | case4 p steps =>
    have hp : p x = false := hx (one p) List.mem_cons_self
    rw [List.nil_append, follow, if_neg (by simp [hp])]
  | case5 p steps t ih =>
    have hp : p x = false := hx (run p) List.mem_cons_self
    rw [follow, Text.dropWhile_append_cons hp]
    exact ih (fun step hs => hx step (List.mem_cons_of_mem _ hs)) h

/-- A match holds a character for each of its single steps. -/
theorem exists_mem_of_follow {p : Char → Bool} {steps : List Step} (hp : one p ∈ steps)
    {t rest : Text} (h : follow steps t = some rest) : ∃ c ∈ t, p c = true := by
  fun_induction follow steps t with
  | case1 t => exact absurd hp List.not_mem_nil
  | case2 q steps c t hq ih =>
    rcases List.mem_cons.1 hp with heq | hp
    · cases heq
      exact ⟨c, List.mem_cons_self, hq⟩
    · obtain ⟨d, hd, hpd⟩ := ih hp h
      exact ⟨d, List.mem_cons_of_mem _ hd, hpd⟩
  | case3 => cases h
  | case4 => cases h
  | case5 q steps t ih =>
    rcases List.mem_cons.1 hp with heq | hp
    · cases heq
    · obtain ⟨d, hd, hpd⟩ := ih hp h
      exact ⟨d, List.dropWhile_subset _ hd, hpd⟩

end Step

namespace Pattern

def Free (ps : List Pattern) (t : Text) : Prop := ∀ s ∈ t.tails, restOfAny? ps s = none

instance (ps : List Pattern) (t : Text) : Decidable (Free ps t) :=
  inferInstanceAs (Decidable (∀ s ∈ t.tails, restOfAny? ps s = none))

theorem restOfAny?_eq_none_iff {ps : List Pattern} {t : Text} :
    restOfAny? ps t = none ↔ ∀ p ∈ ps, p.rest? t = none :=
  List.findSome?_eq_none_iff

theorem restOfAny?_of_not_first {ps : List Pattern} {c : Char} (h : ∀ p ∈ ps, p.first c = false)
    (t : Text) : restOfAny? ps (c :: t) = none := by
  refine restOfAny?_eq_none_iff.2 fun p hp => ?_
  rw [rest?, if_neg (by simp [h p hp])]

theorem restOfAny?_of_suffix {ps : List Pattern} {t : Text}
    (h : ∀ c ∈ t, ∀ p ∈ ps, p.first c = false) (more : Text) :
    ∀ s, s <:+ t → s ≠ [] → restOfAny? ps (s ++ more) = none := by
  intro s hs hne
  obtain ⟨c, s, rfl⟩ := List.exists_cons_of_ne_nil hne
  exact restOfAny?_of_not_first (h c (hs.subset List.mem_cons_self)) (s ++ more)

theorem rest?_barrier {p : Pattern} {x : Char} (hx : ∀ step ∈ p.steps, step.takes x = false)
    {t : Text} (hne : t ≠ []) (h : p.rest? t = none) (more : Text) :
    p.rest? (t ++ x :: more) = none := by
  cases t with
  | nil => exact absurd rfl hne
  | cons c t =>
    rw [rest?] at h
    rw [List.cons_append, rest?]
    split at h
    · next hc =>
      rw [if_pos hc]
      exact Step.follow_barrier hx h more
    · next hc => rw [if_neg hc]

theorem restOfAny?_barrier {ps : List Pattern} {x : Char}
    (hx : ∀ p ∈ ps, ∀ step ∈ p.steps, step.takes x = false) {t : Text} (hne : t ≠ [])
    (h : restOfAny? ps t = none) (more : Text) : restOfAny? ps (t ++ x :: more) = none :=
  restOfAny?_eq_none_iff.2 fun p hp =>
    rest?_barrier (hx p hp) hne (restOfAny?_eq_none_iff.1 h p hp) more

theorem free_iff {ps : List Pattern} {t : Text} :
    Free ps t ↔ ∀ s, s <:+ t → ∀ p ∈ ps, p.rest? s = none := by
  simp only [Free, List.mem_tails, restOfAny?_eq_none_iff]

/-- A text without a character that every match needs is free of matches. -/
theorem free_of_forall {ps : List Pattern} {t : Text}
    (h : ∀ p ∈ ps, ∃ q, Step.one q ∈ p.steps ∧ ∀ c ∈ t, q c = false) : Free ps t := by
  rw [free_iff]
  intro s hs p hp
  obtain ⟨q, hq, ht⟩ := h p hp
  by_contra hsome
  obtain ⟨rest, hrest⟩ := Option.ne_none_iff_exists'.1 hsome
  cases s with
  | nil => cases hrest
  | cons c s =>
    rw [rest?] at hrest
    split at hrest
    · obtain ⟨d, hd, hqd⟩ := Step.exists_mem_of_follow hq hrest
      rw [ht d (hs.subset (List.mem_cons_of_mem _ hd))] at hqd
      cases hqd
    · cases hrest

theorem free_nil (ps : List Pattern) : Free ps [] := by
  rw [free_iff]
  intro s hs p _
  rw [List.suffix_nil.1 hs]
  rfl

theorem free_cons {ps : List Pattern} {c : Char} {t : Text} :
    Free ps (c :: t) ↔ restOfAny? ps (c :: t) = none ∧ Free ps t := by
  simp only [Free, List.tails_cons, List.forall_mem_cons]

theorem suffix_append_cases {s t u : Text} (h : u <:+ s ++ t) :
    u <:+ t ∨ ∃ v, u = v ++ t ∧ v <:+ s := by
  obtain ⟨front, hfront⟩ := h
  rcases List.append_eq_append_iff.1 hfront with ⟨v, hs, hu⟩ | ⟨v, -, ht⟩
  · exact .inr ⟨v, hu, front, hs.symm⟩
  · exact .inl ⟨v, ht.symm⟩

theorem Free.append_of_not_first {ps : List Pattern} {s t : Text}
    (hs : ∀ c ∈ s, ∀ p ∈ ps, p.first c = false) (ht : Free ps t) : Free ps (s ++ t) := by
  rw [free_iff] at ht ⊢
  intro u hu p hp
  rcases suffix_append_cases hu with hu | ⟨v, rfl, hv⟩
  · exact ht u hu p hp
  · cases v with
    | nil => exact ht t (List.suffix_refl _) p hp
    | cons c v =>
      rw [List.cons_append, rest?, if_neg (by simp [hs c (hv.subset List.mem_cons_self) p hp])]

/-- A character that begins no match and that no step takes keeps the texts around it apart. -/
theorem Free.append_cons {ps : List Pattern} {s t : Text} {x : Char} (hs : Free ps s)
    (hx : ∀ p ∈ ps, ∀ step ∈ p.steps, step.takes x = false) (hfirst : ∀ p ∈ ps, p.first x = false)
    (ht : Free ps t) : Free ps (s ++ x :: t) := by
  have htail : Free ps (x :: t) := free_cons.2 ⟨restOfAny?_of_not_first hfirst t, ht⟩
  rw [free_iff] at hs htail ⊢
  intro u hu p hp
  rcases suffix_append_cases hu with hu | ⟨v, rfl, hv⟩
  · exact htail u hu p hp
  · by_cases hne : v = []
    · rw [hne]
      exact htail _ (List.suffix_refl _) p hp
    · exact rest?_barrier (hx p hp) hne (hs v hv p hp) t

theorem cutFrom_of_none {ps : List Pattern} {t : Text} (h : restOfAny? ps t = none) (piece : Text) :
    cutFrom ps piece t = match t with
      | [] => [piece.reverse]
      | c :: t => cutFrom ps (c :: piece) t := by
  rw [cutFrom]
  split
  · next hrest =>
    rw [h] at hrest
    cases hrest
  · cases t <;> rfl

/-- Where no match begins, the text goes onto the piece at hand. -/
theorem cutFrom_append {ps : List Pattern} {t more : Text}
    (h : ∀ s, s <:+ t → s ≠ [] → restOfAny? ps (s ++ more) = none) (piece : Text) :
    cutFrom ps piece (t ++ more) = cutFrom ps (t.reverse ++ piece) more := by
  induction t generalizing piece with
  | nil => rfl
  | cons c t ih =>
    have hnone := h (c :: t) (List.suffix_refl _) (List.cons_ne_nil _ _)
    have hstep : cutFrom ps piece (c :: (t ++ more)) = cutFrom ps (c :: piece) (t ++ more) :=
      cutFrom_of_none hnone piece
    rw [List.cons_append, hstep, ih (fun s hs => h s (hs.trans (List.suffix_cons _ _))),
      List.reverse_cons, List.append_assoc, List.singleton_append]

theorem cutFrom_of_rest {ps : List Pattern} {t rest : Text} (h : restOfAny? ps t = some rest)
    (piece : Text) : cutFrom ps piece t = piece.reverse :: cutFrom ps [] rest := by
  rw [cutFrom]
  split
  · next hrest =>
    rw [h] at hrest
    cases hrest
    rfl
  · next hrest =>
    rw [h] at hrest
    cases hrest

/-- Where no match begins before a match, the text is the first piece. -/
theorem cut_append_of_rest {ps : List Pattern} {before more rest : Text}
    (h : ∀ s, s <:+ before → s ≠ [] → restOfAny? ps (s ++ more) = none)
    (hmatch : restOfAny? ps more = some rest) : cut ps (before ++ more) = before :: cut ps rest := by
  rw [cut, cutFrom_append h, cutFrom_of_rest hmatch, List.append_nil, List.reverse_reverse, cut]

/-- A text free of matches before a match is the first piece. -/
theorem cut_of_free {ps : List Pattern} {before rest more : Text} {x : Char}
    (hfree : Free ps before) (hx : ∀ p ∈ ps, ∀ step ∈ p.steps, step.takes x = false)
    (hmatch : restOfAny? ps (x :: more) = some rest) :
    cut ps (before ++ x :: more) = before :: cut ps rest := by
  have hnone : ∀ s, s <:+ before → s ≠ [] → restOfAny? ps (s ++ x :: more) = none := by
    intro s hs hne
    exact restOfAny?_barrier hx hne (hfree s ((List.mem_tails _ _).2 hs)) more
  exact cut_append_of_rest hnone hmatch

/-- What no pattern begins with is a piece, up to the first match. -/
theorem cut_of_not_first {ps : List Pattern} {before more rest : Text}
    (hfirst : ∀ c ∈ before, ∀ p ∈ ps, p.first c = false)
    (hmatch : restOfAny? ps more = some rest) : cut ps (before ++ more) = before :: cut ps rest := by
  exact cut_append_of_rest (restOfAny?_of_suffix hfirst more) hmatch

theorem rest?_literal_eq_some_iff {c : Char} {l : String} {t rest : Text} :
    (ofChar c (Step.literal l)).rest? t = some rest ↔ t = (c :: l.toList) ++ rest := by
  cases t with
  | nil => simp [rest?]
  | cons d t =>
    rw [List.cons_append, List.cons.injEq, rest?, ← Step.follow_literal_eq_some_iff]
    split
    · next hd => simp [eq_of_beq hd, ofChar]
    · next hd => simpa using fun heq => absurd (beq_iff_eq.2 heq) hd

/-- A literal that does not overlap itself does not match before the end of a text without it. -/
theorem restOfAny?_before_literal {c : Char} {l : String}
    (hl : ∀ k ∈ List.range l.length, ¬l.toList.drop k <+: c :: l.toList) {before : Text}
    (hfree : Free [ofChar c (Step.literal l)] before) (t : Text) :
    ∀ s, s <:+ before → s ≠ [] →
      restOfAny? [ofChar c (Step.literal l)] (s ++ ((c :: l.toList) ++ t)) = none := by
  intro s hs hne
  refine restOfAny?_eq_none_iff.2 fun p hp => ?_
  obtain rfl := List.mem_singleton.1 hp
  have hnone := free_iff.1 hfree s hs _ hp
  by_contra hsome
  obtain ⟨rest, hfound⟩ := Option.ne_none_iff_exists'.1 hsome
  rcases List.append_eq_append_iff.1 (rest?_literal_eq_some_iff.1 hfound) with
    ⟨v, hs', hv⟩ | ⟨v, hs', -⟩
  · obtain ⟨d, s, rfl⟩ := List.exists_cons_of_ne_nil hne
    rw [List.cons_append, List.cons.injEq] at hs'
    obtain ⟨rfl, hl'⟩ := hs'
    have hdrop : l.toList.drop s.length = v := by rw [hl', List.drop_left]
    by_cases hv' : v = []
    · rw [hv', List.append_nil] at hl'
      rw [← hl', rest?_literal_eq_some_iff.2 (List.append_nil _).symm] at hnone
      cases hnone
    · have hlength := congrArg List.length hl'
      rw [List.length_append, String.length_toList] at hlength
      have hpos := List.length_pos_iff.2 hv'
      refine hl s.length (List.mem_range.2 (by omega)) ?_
      rw [hdrop]
      refine List.prefix_of_prefix_length_le ⟨rest, hv.symm⟩ (List.prefix_append _ t) ?_
      rw [List.length_cons, String.length_toList]
      omega
  · rw [rest?_literal_eq_some_iff.2 hs'] at hnone
    cases hnone

theorem restOfAny?_literal_eq_some_iff {c : Char} {l : String} {t rest : Text} :
    restOfAny? [ofChar c (Step.literal l)] t = some rest ↔ t = (c :: l.toList) ++ rest := by
  rw [← rest?_literal_eq_some_iff, restOfAny?, List.findSome?_cons, List.findSome?_nil]
  split
  · next hrest => rw [hrest]
  · next hrest => rw [hrest]

/-- A literal that does not overlap itself is found where a text without it ends. -/
theorem cut_literal {c : Char} {l : String}
    (hl : ∀ k ∈ List.range l.length, ¬l.toList.drop k <+: c :: l.toList) {before : Text}
    (hfree : Free [ofChar c (Step.literal l)] before) (t : Text) :
    cut [ofChar c (Step.literal l)] (before ++ ((c :: l.toList) ++ t)) =
      before :: cut [ofChar c (Step.literal l)] t :=
  cut_append_of_rest (restOfAny?_before_literal hl hfree t) (restOfAny?_literal_eq_some_iff.2 rfl)

/-- A text without a match is in one piece. -/
theorem cut_eq_of_free {ps : List Pattern} {t : Text} (h : Free ps t) : cut ps t = [t] := by
  have hnone : ∀ s, s <:+ t → s ≠ [] → restOfAny? ps (s ++ []) = none := by
    intro s hs _
    rw [List.append_nil]
    exact h s ((List.mem_tails _ _).2 hs)
  have hcut := cutFrom_append hnone []
  have hend : restOfAny? ps [] = none := restOfAny?_eq_none_iff.2 fun p _ => rfl
  rw [List.append_nil, List.append_nil] at hcut
  rw [cut, hcut, cutFrom_of_none hend, List.reverse_reverse]

theorem cut_eq_singleton {ps : List Pattern} {t : Text}
    (hfirst : ∀ c ∈ t, ∀ p ∈ ps, p.first c = false) : cut ps t = [t] := by
  have hfree := (free_nil ps).append_of_not_first hfirst
  rw [List.append_nil] at hfree
  exact cut_eq_of_free hfree

/-- What the piece at hand holds already stands at the front of the first piece. -/
theorem exists_cutFrom (ps : List Pattern) (t : Text) :
    ∃ first more, ∀ piece, cutFrom ps piece t = (piece.reverse ++ first) :: more := by
  induction t with
  | nil =>
    have hend : restOfAny? ps [] = none := restOfAny?_eq_none_iff.2 fun p _ => rfl
    exact ⟨[], [], fun piece => by rw [cutFrom_of_none hend, List.append_nil]⟩
  | cons c t ih =>
    cases hrest : restOfAny? ps (c :: t) with
    | some rest =>
      exact ⟨[], _, fun piece => by rw [cutFrom_of_rest hrest, List.append_nil]⟩
    | none =>
      obtain ⟨first, more, hcut⟩ := ih
      refine ⟨c :: first, more, fun piece => ?_⟩
      rw [cutFrom_of_none hrest]
      dsimp only
      rw [hcut, List.reverse_cons, List.append_assoc, List.singleton_append]

/-- Where no match begins, the text is the front of the first piece. -/
theorem exists_cut_append {ps : List Pattern} {t more : Text}
    (h : ∀ s, s <:+ t → s ≠ [] → restOfAny? ps (s ++ more) = none) :
    ∃ first pieces, cut ps more = first :: pieces ∧ cut ps (t ++ more) = (t ++ first) :: pieces := by
  obtain ⟨first, pieces, hcut⟩ := exists_cutFrom ps more
  refine ⟨first, pieces, hcut [], ?_⟩
  rw [cut, cutFrom_append h, hcut, List.append_nil, List.reverse_reverse]

/-- A text without matches before a character that neither begins a match nor is taken by a step is
the front of the first piece. -/
theorem exists_cut_of_free {ps : List Pattern} {t : Text} {x : Char} (hfree : Free ps t)
    (hx : ∀ p ∈ ps, ∀ step ∈ p.steps, step.takes x = false) (hfirst : ∀ p ∈ ps, p.first x = false)
    (more : Text) : ∃ first pieces, cut ps (t ++ x :: more) = (t ++ x :: first) :: pieces := by
  have hnone : ∀ s, s <:+ t ++ [x] → s ≠ [] → restOfAny? ps (s ++ more) = none := by
    intro s hs hne
    rcases suffix_append_cases hs with hs | ⟨v, rfl, hv⟩
    · obtain ⟨c, s, rfl⟩ := List.exists_cons_of_ne_nil hne
      obtain rfl : c = x := List.mem_singleton.1 (hs.subset List.mem_cons_self)
      exact restOfAny?_of_not_first hfirst _
    · rw [List.append_assoc, List.singleton_append]
      by_cases hnil : v = []
      · rw [hnil, List.nil_append]
        exact restOfAny?_of_not_first hfirst _
      · exact restOfAny?_barrier hx hnil (hfree v ((List.mem_tails _ _).2 hv)) more
  obtain ⟨first, pieces, -, hcut⟩ := exists_cut_append hnone
  rw [List.append_assoc, List.append_assoc, List.singleton_append, List.singleton_append] at hcut
  exact ⟨first, pieces, hcut⟩

end Pattern
end ReplayLog
