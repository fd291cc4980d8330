import ReplayLog.Proofs.EntryParts
import ReplayLog.Proofs.FirstMatch
import ReplayLog.Proofs.LoggedStatements

/-! # Statements behind request stamps

An access log opens a statement with a request stamp and closes it with a statement end. An entry is
cut at both alike, so that the first of them opens its statement: a stamp where no end stands before
the first stamp, but an end wherever one does. -/
namespace ReplayLog.AccessLog

open Extract Pattern

variable {t rest entry before behind sql : Text}

/-- A request stamp stands before every statement end. -/
def EndsBehindStamp (entry : Text) : Prop :=
  ∀ before behind, entry = before ++ '\\' :: ';' :: behind → ¬Free [requestStamp] before

section Separators

theorem restOfAny?_separators (h : restOfAny? separators t = some rest) :
    restOfAny? [requestStamp] t = some rest ∨ t = '\\' :: ';' :: rest := by
  rw [restOfAny?, separators, List.findSome?_cons] at h
  split at h
  · next hstamp => exact .inl (by rw [restOfAny?, List.findSome?_cons, hstamp, ← h])
  · next hstamp =>
    rw [List.findSome?_cons] at h
    split at h
    · next hend =>
      cases h
      exact .inr (rest?_literal_eq_some_iff.1 hend)
    · cases h

/-- A request stamp holds no backslash. -/
theorem requestStamp_barrier (t more : Text) (h : Free [requestStamp] t) :
    restOfAny? [requestStamp] (t ++ '\\' :: more) = none := by
  have hx : ∀ p ∈ [requestStamp], ∀ step ∈ p.steps, step.takes '\\' = false := by decide
  have hfirst : ∀ p ∈ [requestStamp], p.first '\\' = false := by decide
  by_cases hne : t = []
  · rw [hne]
    exact restOfAny?_of_not_first hfirst more
  · exact restOfAny?_barrier hx hne (h t ((List.mem_tails _ _).2 (List.suffix_refl t))) more

/-- A stamp that nothing separates before has every statement end behind it. -/
theorem endsBehindStamp_of_stamp {more : Text}
    (hstamp : restOfAny? [requestStamp] more = some behind)
    (hnone : ∀ s ∈ before.tails, s ≠ [] → restOfAny? separators (s ++ more) = none) :
    EndsBehindStamp (before ++ more) := by
  intro front ending hending hfree
  rcases List.append_eq_append_iff.1 hending with ⟨v, rfl, rfl⟩ | ⟨v, rfl, hend⟩
  · have hunstamped := requestStamp_barrier v (';' :: ending) hfree.of_append_right
    rw [hunstamped] at hstamp
    cases hstamp
  · by_cases hv : v = []
    · rw [hv, List.nil_append] at hend
      rw [← hend] at hstamp
      cases hstamp
    · have hmatch := hnone v ((List.mem_tails _ _).2 (List.suffix_append _ _)) hv
      rw [← hend] at hmatch
      cases hmatch

/-- What separates first is a stamp where a stamp stands before every end, and else it is an end. -/
theorem firstMatch_separators (h : FirstMatch separators entry before behind) :
    FirstMatch [requestStamp] entry before behind ∧ EndsBehindStamp entry ∨
      entry = before ++ '\\' :: ';' :: behind ∧ ¬EndsBehindStamp entry := by
  have hsub : [requestStamp] ⊆ separators := by simp [separators]
  have hfree := h.free.of_subset hsub
  obtain ⟨more, rfl, hmatch, hnone⟩ := h
  rcases restOfAny?_separators hmatch with hstamp | rfl
  · refine .inl ⟨⟨more, rfl, hstamp, fun s hs hne => ?_⟩, endsBehindStamp_of_stamp hstamp hnone⟩
    have hs := restOfAny?_eq_none_iff.1 (hnone s hs hne)
    exact restOfAny?_eq_none_iff.2 fun p hp => hs p (hsub hp)
  · exact .inr ⟨rfl, fun hends => hends before behind rfl hfree⟩

theorem EndsBehindStamp.firstMatch (hends : EndsBehindStamp entry)
    (h : FirstMatch [requestStamp] entry before behind) :
    FirstMatch separators entry before behind := by
  rcases free_or_firstMatch separators entry with hfree | ⟨before', behind', h'⟩
  · exact absurd (hfree.of_subset (by simp [separators])) h.not_free
  · rcases firstMatch_separators h' with ⟨hstamp, -⟩ | ⟨-, hnot⟩
    · obtain ⟨rfl, rfl⟩ := h.unique hstamp
      exact h'
    · exact absurd hends hnot

/-- Without a stamp and without an end before one, nothing separates. -/
theorem EndsBehindStamp.free (hends : EndsBehindStamp entry) (h : Free [requestStamp] entry) :
    Free separators entry := by
  rcases free_or_firstMatch separators entry with hfree | ⟨before, behind, hfirst⟩
  · exact hfree
  · rcases firstMatch_separators hfirst with ⟨hstamp, -⟩ | ⟨-, hnot⟩
    · exact absurd h hstamp.not_free
    · exact absurd hends hnot

/-- An end that no stamp stands before separates first. -/
theorem exists_firstMatch_of_not_endsBehindStamp (h : ¬EndsBehindStamp entry) :
    ∃ before behind, FirstMatch separators entry before behind ∧
      entry = before ++ '\\' :: ';' :: behind := by
  rcases free_or_firstMatch separators entry with hfree | ⟨before, behind, hfirst⟩
  · refine absurd ?_ h
    rintro before behind rfl -
    have hend := hfree ('\\' :: ';' :: behind) ((List.mem_tails _ _).2 (List.suffix_append _ _))
    cases hend
  · rcases firstMatch_separators hfirst with ⟨-, hends⟩ | ⟨heq, -⟩
    · exact absurd hends h
    · exact ⟨before, behind, hfirst, heq⟩

end Separators

section Statement

theorem statement_of_firstMatch (h : FirstMatch separators entry before behind)
    (hsql : UpTo separators behind sql) : statement entry = .ok sql.trim := by
  obtain ⟨pieces, hcut⟩ := hsql.exists_cut_eq
  have hentry : cut [requestStamp, statementEnd] entry = before :: sql :: pieces := by
    rw [← separators, h.cut_eq, hcut]
  rw [statement, hentry]

theorem statement_of_free (h : Free separators entry) :
    statement entry = .error (.fault (.missingPiece statementRule 1)) := by
  have hentry : cut [requestStamp, statementEnd] entry = [entry] := cut_eq_of_free h
  rw [statement, hentry]
  rfl

/-- Where a stamp stands before every end, the statement is what stands behind the first stamp, up
to the next separator. -/
theorem EndsBehindStamp.statement_eq_ok_iff (hends : EndsBehindStamp entry) {text : Text} :
    statement entry = .ok text ↔ ∃ before behind sql,
      FirstMatch [requestStamp] entry before behind ∧ UpTo separators behind sql ∧
        text = sql.trim := by
  constructor
  · intro h
    rcases free_or_firstMatch [requestStamp] entry with hfree | ⟨before, behind, hstamp⟩
    · rw [statement_of_free (hends.free hfree)] at h
      cases h
    · obtain ⟨sql, hsql⟩ := exists_upTo separators behind
      rw [statement_of_firstMatch (hends.firstMatch hstamp) hsql] at h
      exact ⟨before, behind, sql, hstamp, hsql, (Except.ok.inj h).symm⟩
  · rintro ⟨before, behind, sql, hstamp, hsql, rfl⟩
    exact statement_of_firstMatch (hends.firstMatch hstamp) hsql

end Statement

section Conversion

variable {zone : Zone} {schema : Text}

theorem statement_of_emit {r : Record} (h : convert zone schema entry = .ok (.emit r)) :
    statement entry = .ok r.statement := by
  obtain ⟨header, -, h⟩ := bind_eq_ok_iff.1 h
  obtain ⟨startTime, -, h⟩ := bind_eq_ok_iff.1 h
  obtain ⟨text, htext, h⟩ := bind_eq_ok_iff.1 h
  obtain ⟨execTime, -, h⟩ := bind_eq_ok_iff.1 h
  split at h <;> cases h
  exact htext

/-- Without its statement, an entry is faulty. -/
theorem exists_fault_of_statement {fault : EntryFault}
    (h : statement entry = .error (.fault fault)) :
    ∃ fault, convert zone schema entry = .error (.fault fault) := by
  refine GoesOn.exists_fault (fun o ho => ?_) fun outcome hok => ?_
  · obtain ⟨header, -, startTime, -, text, htext, -⟩ := (convert_eq_overflow_iff _ _ _ o).1 ho
    rw [h] at htext
    cases htext
  · obtain ⟨header, -, hok⟩ := bind_eq_ok_iff.1 hok
    obtain ⟨startTime, -, hok⟩ := bind_eq_ok_iff.1 hok
    obtain ⟨text, htext, -⟩ := bind_eq_ok_iff.1 hok
    rw [h] at htext
    cases htext

/-- Where a request stamp stands before every statement end, the statement of an entry is what
stands behind its first stamp, and an entry without a stamp is faulty. Any other entry is read from
behind its first end, which no stamp stands before. -/
theorem statement_behind_stamp (zone : Zone) (schema entry : Text) :
    (EndsBehindStamp entry →
      (Free [requestStamp] entry →
        statement entry = .error (.fault (.missingPiece statementRule 1)) ∧
          ∃ fault, convert zone schema entry = .error (.fault fault)) ∧
      (∀ text, statement entry = .ok text ↔ ∃ before behind sql,
        FirstMatch [requestStamp] entry before behind ∧ UpTo separators behind sql ∧
          text = sql.trim) ∧
      ∀ r, convert zone schema entry = .ok (.emit r) → ∃ before behind sql,
        FirstMatch [requestStamp] entry before behind ∧ UpTo separators behind sql ∧
          r.statement = sql.trim) ∧
    (¬EndsBehindStamp entry → ∃ before behind sql,
      entry = before ++ '\\' :: ';' :: behind ∧ Free separators before ∧
        UpTo separators behind sql ∧ statement entry = .ok sql.trim ∧
        ∀ r, convert zone schema entry = .ok (.emit r) → r.statement = sql.trim) := by
  constructor
  · intro hends
    refine ⟨fun hfree => ?_, fun text => hends.statement_eq_ok_iff, fun r hr => ?_⟩
    · have hfault := statement_of_free (hends.free hfree)
      exact ⟨hfault, exists_fault_of_statement hfault⟩
    · exact hends.statement_eq_ok_iff.1 (statement_of_emit hr)
  · intro hends
    obtain ⟨before, behind, hfirst, heq⟩ := exists_firstMatch_of_not_endsBehindStamp hends
    obtain ⟨sql, hsql⟩ := exists_upTo separators behind
    have hstatement := statement_of_firstMatch hfirst hsql
    refine ⟨before, behind, sql, heq, hfirst.free, hsql, hstatement, fun r hr => ?_⟩
    rw [statement_of_emit hr] at hstatement
    exact Except.ok.inj hstatement

end Conversion

def unstampedEntry : Text := "[2023-02-10 00:03:15,398] I [t] L - C T=4 a\\;select 1".toList

/-- What stands behind the end is emitted as a statement, although no stamp opens it. -/
theorem convert_unstampedEntry :
    Free [requestStamp] unstampedEntry ∧ statement unstampedEntry = .ok "select 1".toList ∧
      convert (.fixed 0) [] unstampedEntry = .ok (.emit
        ⟨"select 1".toList, 1675987395398000, "C[t]".toList, 4000, [], some [], none⟩) := by
  decide +kernel

/-- A statement with a stamp before its end is read from behind the stamp, and one without a stamp
from behind its end. -/
theorem statement_behind_stamp_timedEntry :
    (EndsBehindStamp (timedEntry "4") ∧
      ∃ r, convert (.fixed 0) [] (timedEntry "4") = .ok (.emit r) ∧ ∃ before behind sql,
        FirstMatch [requestStamp] (timedEntry "4") before behind ∧ UpTo separators behind sql ∧
          r.statement = sql.trim) ∧
      ¬EndsBehindStamp unstampedEntry ∧
      ∃ before behind sql, unstampedEntry = before ++ '\\' :: ';' :: behind ∧
        UpTo separators behind sql ∧ statement unstampedEntry = .ok sql.trim := by
  have hstamp : restOfAny? [requestStamp] "[2023-02-10 00:03:15 398] 7 a\\;".toList =
      some "a\\;".toList := by decide +kernel
  have hnone : ∀ s ∈ "[2023-02-10 00:03:15,398] I [t] L - C T=4 ".toList.tails, s ≠ [] →
      restOfAny? separators (s ++ "[2023-02-10 00:03:15 398] 7 a\\;".toList) = none := by
    decide +kernel
  have hends : EndsBehindStamp (timedEntry "4") := endsBehindStamp_of_stamp hstamp hnone
  have hemit : convert (.fixed 0) [] (timedEntry "4") = .ok (.emit
      ⟨"a".toList, 1675987395398000, "C[t]".toList, 4000, [], some [], none⟩) := by
    decide +kernel
  have hnot : ¬EndsBehindStamp unstampedEntry := by
    intro h
    refine h "[2023-02-10 00:03:15,398] I [t] L - C T=4 a".toList "select 1".toList ?_ ?_
    · decide +kernel
    · decide +kernel
  obtain ⟨hread, -⟩ := statement_behind_stamp (.fixed 0) [] (timedEntry "4")
  obtain ⟨-, hend⟩ := statement_behind_stamp (.fixed 0) [] unstampedEntry
  obtain ⟨before, behind, sql, heq, -, hsql, htext, -⟩ := hend hnot
  exact ⟨⟨hends, _, hemit, (hread hends).2.2 _ hemit⟩, hnot, before, behind, sql, heq, hsql,
    htext⟩

end ReplayLog.AccessLog
