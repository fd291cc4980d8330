import Mathlib.Data.List.Infix
import ReplayLog.Proofs.SieveDrain
import ReplayLog.Proofs.TableRendering

/-! # What the sieve and the grammar take for quoted

The sieve must keep the spaces inside quotes, so it has to know what the grammar will take for
quoted. The two differ in one thing: a carriage return outside quotes, and the mark in front of a
table, leave the grammar at the start of a row and the sieve inside a field. A quote right there
opens a field for the grammar only. Nowhere else do they part. -/
namespace ReplayLog

def LeadingSpace.State.InQuotes (s : LeadingSpace.State) : Prop := s = .quoted ∨ s = .quoteInQuoted

def Table.Position.InQuotes (p : Table.Position) : Prop := p = .quoted ∨ p = .quoteInQuoted

instance (s : LeadingSpace.State) : Decidable s.InQuotes := inferInstanceAs (Decidable (_ ∨ _))

instance (p : Table.Position) : Decidable p.InQuotes := inferInstanceAs (Decidable (_ ∨ _))

/-- Nothing but spaces is dropped. -/
theorem LeadingSpace.State.eq_space_of_dropped {s : LeadingSpace.State} {b : UInt8}
    (h : ¬s.keeps b = true) : b = space := by
  rw [keeps, Bool.not_eq_true', Bool.not_eq_false, Bool.and_eq_true] at h
  exact eq_of_beq h.2

namespace Table
open LeadingSpace

def Position.next (p : Position) (b : UInt8) : Position :=
  match p with
  | .rowStart => if Reading.isRowEnd b then .rowStart else if b == quote then .quoted else unquoted b
  | .fieldStart => if b == quote then .quoted else unquoted b
  | .bare => unquoted b
  | .quoted => if b == quote then .quoteInQuoted else .quoted
  | .quoteInQuoted => if b == quote then .quoted else unquoted b
where
  /-- The position behind an octet outside quotes. -/
  unquoted (b : UInt8) : Position :=
    if b == comma then .fieldStart else if Reading.isRowEnd b then .rowStart else .bare

theorem position_stepUnquoted (r : Reading) (b : UInt8) :
    (r.stepUnquoted b).position = Position.next.unquoted b := by
  rw [Reading.stepUnquoted, Position.next.unquoted, comma]
  by_cases hcomma : (b == 0x2C) = true
  · rw [if_pos hcomma, if_pos hcomma]
    rfl
  · by_cases hend : Reading.isRowEnd b = true
    · rw [if_neg hcomma, if_neg hcomma, if_pos hend, if_pos hend]
      rfl
    · rw [if_neg hcomma, if_neg hcomma, if_neg hend, if_neg hend]
      rfl

theorem position_step (r : Reading) (b : UInt8) : (r.step b).position = r.position.next b := by
  rw [Reading.step]
  generalize hcounted : (if b == 0x0A then { r with lineFeeds := r.lineFeeds + 1 } else r) = r'
  have hposition : r'.position = r.position := by
    rw [← hcounted]
    split <;> rfl
  rw [← hposition]
  cases hp : r'.position with
  | rowStart =>
    dsimp only [Position.next]
    by_cases hend : Reading.isRowEnd b = true
    · rw [if_pos hend, if_pos hend, hp]
    · rw [if_neg hend, if_neg hend, ← position_stepUnquoted r' b, quote]
      split <;> rfl
  | fieldStart =>
    dsimp only [Position.next]
    rw [← position_stepUnquoted r' b, quote]
    split <;> rfl
  | bare => exact position_stepUnquoted r' b
  | quoted =>
    dsimp only [Position.next]
    rw [quote]
    split <;> rfl
  | quoteInQuoted =>
    dsimp only [Position.next]
    rw [← position_stepUnquoted r' b, quote]
    split <;> rfl

/-- How the sieve and the grammar stand to each other, with or without a carriage return or the mark
right behind them. -/
inductive InStep : State → Position → Bool → Prop
  | rowStart : InStep .fieldStart .rowStart false
  | fieldStart : InStep .fieldStart .fieldStart false
  | bare : InStep .bare .bare false
  | ahead : InStep .bare .rowStart true
  | quoted (returned : Bool) : InStep .quoted .quoted returned
  | quoteInQuoted : InStep .quoteInQuoted .quoteInQuoted false

namespace InStep

variable {s : State} {position : Position} {returned : Bool}

theorem inQuotes_iff (h : InStep s position returned) : s.InQuotes ↔ position.InQuotes := by
  cases h <;> decide

theorem eq_of_returned (h : InStep .bare position true) : position = .rowStart := by
  cases h
  rfl

theorem eq_of_bare (h : InStep s .bare returned) : s = .bare := by
  cases h
  rfl

theorem keeps_of_returned (h : InStep s position true) (b : UInt8) : s.keeps b = true := by
  cases h <;> rfl

theorem start_of_dropped (h : InStep s position returned) {b : UInt8} (hb : ¬s.keeps b = true) :
    position = .rowStart ∨ position = .fieldStart := by
  cases h with
  | rowStart => exact .inl rfl
  | fieldStart => exact .inr rfl
  | _ => exact absurd rfl hb

/-- An octet keeps the two in step, unless it is a quote behind a carriage return or the mark. -/
theorem next (h : InStep s position returned) {b : UInt8}
    (hb : ¬(s = .bare ∧ returned = true ∧ b = quote)) :
    InStep (s.next b) (if s.keeps b then position.next b else position) (b == carriageReturn) := by
  by_cases hquote : b = quote
  · subst hquote
    cases h with
    | rowStart => exact .quoted _
    | fieldStart => exact .quoted _
    | bare => exact .bare
    | ahead => exact absurd ⟨rfl, rfl, rfl⟩ hb
    | quoted => exact .quoteInQuoted
    | quoteInQuoted => exact .quoted _
  by_cases hcomma : b = comma
  · subst hcomma
    cases h with
    | quoted => exact .quoted _
    | _ => exact .fieldStart
  by_cases hnewline : b = newline
  · subst hnewline
    cases h with
    | quoted => exact .quoted _
    | _ => exact .rowStart
  by_cases hreturn : b = carriageReturn
  · subst hreturn
    cases h with
    | quoted => exact .quoted _
    | _ => exact .ahead
  have hnone : (b == carriageReturn) = false := beq_false_of_ne hreturn
  have hend : Reading.isRowEnd b = false := by
    rw [Reading.isRowEnd, Bool.or_eq_false_iff]
    exact ⟨beq_false_of_ne hreturn, beq_false_of_ne hnewline⟩
  have hs : State.next.unquoted b = .bare := by simp [State.next.unquoted, hcomma, hnewline]
  have hp : Position.next.unquoted b = .bare := by simp [Position.next.unquoted, hcomma, hend]
  rw [hnone]
  by_cases hspace : b = space
  · subst hspace
    cases h with
    | rowStart => exact .rowStart
    | fieldStart => exact .fieldStart
    | quoted => exact .quoted _
    | _ => exact .bare
  · cases h with
    | quoted =>
      simp only [State.next, State.keeps, Position.next, beq_false_of_ne hquote]
      exact .quoted _
    | _ =>
      simp only [State.next, State.keeps, Position.next, beq_false_of_ne hquote,
        beq_false_of_ne hspace, hs, hp, hend]
      exact .bare

end InStep

/-- The octets of a table with the mark in front of them taken off, if it is seen there. -/
def unmarked (seen : Bool) (bs : List UInt8) : List UInt8 :=
  if seen = true ∧ mark <+: bs then bs.drop mark.length else bs

/-- What the grammar is given of reads. The first of them decides whether the mark is seen. -/
theorem content_of_first (reads : List (List UInt8)) (failure : Option String) :
    content failure reads = if reads.headD [] = mark then ([], none)
      else (unmarked (decide (mark <+: reads.headD [])) reads.flatten, failure) := by
  cases reads with
  | nil => rfl
  | cons first reads =>
    rw [content, List.headD_cons]
    by_cases hfirst : first = mark
    · rw [if_pos hfirst, if_pos hfirst]
    · rw [if_neg hfirst, if_neg hfirst, List.flatten_cons]
      by_cases hmark : mark <+: first
      · rw [if_pos (List.isPrefixOf_iff_prefix.2 hmark), unmarked,
          if_pos ⟨decide_eq_true hmark, hmark.trans (List.prefix_append _ _)⟩,
          List.drop_append_of_le_length hmark.length_le]
      · rw [if_neg (mt List.isPrefixOf_iff_prefix.1 hmark), unmarked, if_neg (by simp [hmark])]

def readingOf (seen : Bool) (bs : List UInt8) : Reading :=
  (unmarked seen (sift .fieldStart bs).1).foldl Reading.step Reading.start

/-- Whether what passes of the octets is the mark, and it is seen. -/
def AtMark (seen : Bool) (bs : List UInt8) : Prop := seen = true ∧ (sift .fieldStart bs).1 = mark

/-- Whether the octets end where the grammar may stand at the start of a row and the sieve does not:
behind a carriage return or behind the mark. -/
def Returned (seen : Bool) (bs : List UInt8) : Prop :=
  bs.getLast? = some carriageReturn ∨ AtMark seen bs

instance (seen : Bool) (bs : List UInt8) : Decidable (AtMark seen bs) :=
  inferInstanceAs (Decidable (_ ∧ _))

instance (seen : Bool) (bs : List UInt8) : Decidable (Returned seen bs) :=
  inferInstanceAs (Decidable (_ ∨ _))

/-- A quote stands behind a carriage return or the mark, and the sieve takes it for a part of the
field before it. -/
def Misread (seen : Bool) (bs : List UInt8) : Prop :=
  ∃ p, p ++ [quote] <+: bs ∧ (sift .fieldStart p).2 = .bare ∧ Returned seen p

instance (seen : Bool) (bs : List UInt8) : Decidable (Misread seen bs) :=
  decidable_of_iff (∃ p ∈ bs.inits, p ++ [quote] <+: bs ∧ (sift .fieldStart p).2 = .bare ∧
    Returned seen p) (exists_congr fun p => by
      rw [List.mem_inits]
      exact and_iff_right_of_imp fun h => (List.prefix_append p [quote]).trans h.1)

variable {seen : Bool}

theorem sift_concat (bs : List UInt8) (b : UInt8) :
    sift .fieldStart (bs ++ [b]) = ((sift .fieldStart bs).1 ++
      (if (sift .fieldStart bs).2.keeps b then [b] else []), (sift .fieldStart bs).2.next b) := by
  rw [sift_append, sift]
  rfl

theorem unmarked_concat {bs : List UInt8} {b : UInt8} (h : ¬(seen = true ∧ bs ++ [b] = mark)) :
    unmarked seen (bs ++ [b]) = unmarked seen bs ++ [b] := by
  have hiff : seen = true ∧ mark <+: bs ++ [b] ↔ seen = true ∧ mark <+: bs := by
    rw [List.prefix_concat_iff, and_or_left]
    exact or_iff_right fun ⟨hseen, heq⟩ => h ⟨hseen, heq.symm⟩
  rw [unmarked, unmarked]
  by_cases hbs : seen = true ∧ mark <+: bs
  · rw [if_pos (hiff.2 hbs), if_pos hbs, List.drop_append_of_le_length hbs.2.length_le]
  · rw [if_neg (mt hiff.1 hbs), if_neg hbs]

theorem readingOf_concat {bs : List UInt8} {b : UInt8} (h : ¬AtMark seen (bs ++ [b])) :
    readingOf seen (bs ++ [b]) =
      if (sift .fieldStart bs).2.keeps b then (readingOf seen bs).step b else readingOf seen bs := by
  rw [AtMark, sift_concat] at h
  rw [readingOf, readingOf, sift_concat]
  split
  · next hkeeps =>
    rw [if_pos hkeeps] at h
    dsimp only
    rw [unmarked_concat h, List.foldl_append]
    rfl
  · rw [List.append_nil]

theorem returned_concat {bs : List UInt8} {b : UInt8} (h : ¬AtMark seen (bs ++ [b])) :
    decide (Returned seen (bs ++ [b])) = (b == carriageReturn) := by
  have hiff : Returned seen (bs ++ [b]) ↔ b = carriageReturn := by
    rw [Returned, List.getLast?_concat, Option.some.injEq]
    exact or_iff_left h
  rw [decide_eq_decide.2 hiff]
  exact (beq_eq_decide b carriageReturn).symm

theorem Misread.mono {bs bs' : List UInt8} (h : Misread seen bs) (hfront : bs <+: bs') :
    Misread seen bs' := by
  obtain ⟨p, hp, hbare, hreturned⟩ := h
  exact ⟨p, hp.trans hfront, hbare, hreturned⟩

theorem readingOf_of_atMark {bs : List UInt8} (h : AtMark seen bs) :
    readingOf seen bs = Reading.start := by
  obtain ⟨rfl, hmark⟩ := h
  rw [readingOf, hmark]
  rfl

open InStep in
/-- Behind the mark the grammar starts afresh, and the sieve is inside a field. -/
theorem inStep_of_atMark {bs : List UInt8} {b : UInt8}
    (h : InStep (sift .fieldStart bs).2 (readingOf seen bs).position (decide (Returned seen bs)))
    (hmark : AtMark seen (bs ++ [b])) :
    InStep (sift .fieldStart (bs ++ [b])).2 (readingOf seen (bs ++ [b])).position true := by
  have hstate : (sift .fieldStart (bs ++ [b])).2 = .bare := by
    obtain ⟨hseen, hmark⟩ := hmark
    rw [sift_concat] at hmark ⊢
    dsimp only at hmark ⊢
    split at hmark
    · have hsplit : (sift .fieldStart bs).1 ++ [b] = [0xEF, 0xBB] ++ [0xBF] := hmark
      obtain ⟨hkept, hb⟩ := List.append_inj' hsplit rfl
      have hbare : (readingOf seen bs).position = .bare := by
        rw [readingOf, hkept, unmarked, if_neg fun hp => absurd hp.2 (by decide)]
        rfl
      rw [hbare] at h
      rw [eq_of_bare h, List.head_eq_of_cons_eq hb]
      rfl
    · next hdropped =>
      rw [List.append_nil] at hmark
      rw [decide_eq_true (.inr ⟨hseen, hmark⟩)] at h
      exact absurd (keeps_of_returned h b) hdropped
  rw [readingOf_of_atMark hmark, hstate]
  exact .ahead

/-- Where nothing is misread, the sieve and the grammar are in step. -/
theorem inStep_of_not_misread {bs : List UInt8} (h : ¬Misread seen bs) :
    InStep (sift .fieldStart bs).2 (readingOf seen bs).position (decide (Returned seen bs)) := by
  induction bs using List.reverseRecOn with
  | nil => cases seen <;> exact .rowStart
  | append_singleton bs b ih =>
    have hstep := ih fun hbs => h (hbs.mono (List.prefix_append _ _))
    by_cases hmark : AtMark seen (bs ++ [b])
    · have hreturned : Returned seen (bs ++ [b]) := .inr hmark
      rw [decide_eq_true hreturned]
      exact inStep_of_atMark hstep hmark
    · have hnext := hstep.next (b := b) fun ⟨hbare, hreturned, hquote⟩ =>
        h ⟨bs, hquote ▸ List.prefix_refl _, hbare, of_decide_eq_true hreturned⟩
      rw [returned_concat hmark, readingOf_concat hmark, sift_concat, apply_ite Reading.position,
        position_step]
      exact hnext

/-- What is misread first is quoted for the grammar only. -/
theorem exists_not_inQuotes_iff {bs : List UInt8} (h : Misread seen bs) :
    ∃ p, p <+: bs ∧ ¬((sift .fieldStart p).2.InQuotes ↔ (readingOf seen p).position.InQuotes) := by
  induction bs using List.reverseRecOn with
  | nil =>
    obtain ⟨p, hp, -⟩ := h
    exact absurd (List.prefix_nil.1 hp) (by simp)
  | append_singleton bs b ih =>
    by_cases hbs : Misread seen bs
    · obtain ⟨p, hp, hne⟩ := ih hbs
      exact ⟨p, hp.trans (List.prefix_append _ _), hne⟩
    · obtain ⟨p, hp, hbare, hreturned⟩ := h
      have heq : p ++ [quote] = bs ++ [b] :=
        (List.prefix_concat_iff.1 hp).resolve_right fun hp => hbs ⟨p, hp, hbare, hreturned⟩
      obtain ⟨rfl, hb⟩ := List.append_inj' heq rfl
      obtain rfl := List.head_eq_of_cons_eq hb
      have hstep := inStep_of_not_misread hbs
      rw [hbare, decide_eq_true hreturned] at hstep
      have hkeeps : State.keeps .bare quote = true := rfl
      have hmark : ¬AtMark seen (p ++ [quote]) := by
        rintro ⟨-, heq⟩
        rw [sift_concat, hbare, if_pos hkeeps] at heq
        have hsplit : (sift .fieldStart p).1 ++ [quote] = [0xEF, 0xBB] ++ [0xBF] := heq
        exact absurd (List.append_inj' hsplit rfl).2 (by decide)
      have hreading : (readingOf seen (p ++ [quote])).position = .quoted := by
        rw [readingOf_concat hmark, hbare, if_pos hkeeps, position_step, hstep.eq_of_returned]
        rfl
      have hstate : (sift .fieldStart (p ++ [quote])).2 = .bare := by
        rw [sift_concat, hbare]
        rfl
      refine ⟨p ++ [quote], List.prefix_refl _, ?_⟩
      rw [hreading, hstate]
      decide

/-- The sieve and the grammar agree on what is quoted exactly if nothing is misread. -/
theorem forall_inQuotes_iff (bs : List UInt8) :
    (∀ p, p <+: bs → ((sift .fieldStart p).2.InQuotes ↔ (readingOf seen p).position.InQuotes)) ↔
      ¬Misread seen bs := by
  constructor
  · intro h hmisread
    obtain ⟨p, hp, hne⟩ := exists_not_inQuotes_iff hmisread
    exact hne (h p hp)
  · intro h p hp
    exact (inStep_of_not_misread fun hmisread => h (hmisread.mono hp)).inQuotes_iff

end Table
end ReplayLog
