import ReplayLog.Proofs.PhysicalLines
import ReplayLog.Table.Grammar
import ReplayLog.Table.LeadingSpace

/-! # What passes the sieve

A sieve that is read to the end hands out the bytes that pass of all bytes behind it, however the
source cut them into reads; only then comes the failure of the source. -/
namespace ReplayLog

theorem Source.end_of_read_error {most : Nat} {s s' : Source} {reason : String}
    (h : s.read most = (.error reason, s')) :
    s.bytes = [] ∧ s'.bytes = [] ∧ s.failure = some reason := by
  obtain ⟨hbytes, hfailure, -⟩ := Source.bytes_of_read_error h
  have hnil : s.bytes = [] := by rw [bytes, (read_error h).1, List.flatten_nil]
  exact ⟨hnil, hbytes.trans hnil, hfailure⟩

namespace BufferedSource

theorem failure_of_fill {b b' : BufferedSource} {bs : List UInt8} (h : b.fill = (.ok bs, b')) :
    b'.source.failure = b.source.failure := by
  unfold fill at h
  split at h
  · split at h <;> cases h
    next hr => exact (Source.bytes_of_read hr).2
  · cases h
    rfl

/-- A buffer with capacity shows nothing only at the end. -/
theorem end_of_fill {b b' : BufferedSource} (h : b.fill = (.ok [], b'))
    (hcapacity : b.held = [] → b.capacity ≠ 0) : b.bytes = [] ∧ b.source.failure = none := by
  have hheld : b.held = [] := by
    by_contra hne
    rw [fill, if_neg (by simpa using hne)] at h
    exact hne (Except.ok.inj (Prod.mk.inj h).1)
  obtain ⟨-, -, -, -, hend⟩ := shown_of_fill h
  obtain ⟨hbytes, hfailure⟩ := hend rfl
  have hcapacity := hcapacity hheld
  rw [shownBytes, if_neg hcapacity] at hbytes
  rw [shownFailure, if_neg (by simp [hcapacity])] at hfailure
  exact ⟨hbytes, hfailure⟩

theorem read_ok {most : Nat} {b b' : BufferedSource} {bs : List UInt8} (hmost : most ≠ 0)
    (h : b.read most = (.ok bs, b')) :
    b.bytes = bs ++ b'.bytes ∧ b'.source.failure = b.source.failure ∧
      (bs = [] → b.bytes = [] ∧ b.source.failure = none) := by
  unfold read at h
  split at h
  · next hb =>
    have hb : b.held = [] := by simpa using (Bool.and_eq_true_iff.1 hb).1
    generalize hs : b.source.read most = p at h
    obtain ⟨r, s'⟩ := p
    cases h
    obtain ⟨hbytes, hfailure⟩ := Source.bytes_of_read hs
    simp only [bytes, hb, List.nil_append]
    refine ⟨hbytes, hfailure, ?_⟩
    intro hnil
    rcases Source.read_ok hs with ⟨hreads, hnone, -, -⟩ | ⟨-, -, hpos⟩
    · simp [Source.bytes, hreads, hnone]
    · exact absurd hnil (hpos hmost)
  · next hb =>
    split at h
    · next held b₁ hf =>
      cases h
      obtain ⟨hbytes, hheld, -⟩ := bytes_of_fill hf
      have hfailure : b₁.source.failure = b.source.failure := failure_of_fill hf
      refine ⟨?_, hfailure, ?_⟩
      · rw [← hbytes, bytes, hheld, bytes, ← List.append_assoc, List.take_append_drop]
      · intro htake
        have hnil : held = [] := (List.take_eq_nil_iff.1 htake).resolve_left hmost
        rw [hnil] at hf
        apply end_of_fill hf
        intro hempty h0
        simp [hempty, h0] at hb
    · cases h

theorem end_of_fill_error {b b' : BufferedSource} {reason : String}
    (h : b.fill = (.error reason, b')) :
    b.bytes = [] ∧ b'.bytes = [] ∧ b.source.failure = some reason := by
  unfold fill at h
  split at h
  · next hb =>
    have hb : b.held = [] := by simpa using hb
    split at h <;> cases h
    next hr => simpa [bytes, hb] using Source.end_of_read_error hr
  · cases h

theorem read_error {most : Nat} {b b' : BufferedSource} {reason : String}
    (h : b.read most = (.error reason, b')) :
    b.bytes = [] ∧ b'.bytes = [] ∧ b.source.failure = some reason := by
  unfold read at h
  split at h
  · next hb =>
    have hb : b.held = [] := by simpa using (Bool.and_eq_true_iff.1 hb).1
    generalize hs : b.source.read most = p at h
    obtain ⟨r, s'⟩ := p
    cases h
    simpa [bytes, hb] using Source.end_of_read_error hs
  · split at h
    · cases h
    · next hf =>
      cases h
      exact end_of_fill_error hf

end BufferedSource

namespace LeadingSpace.Sieve

def handedOut : Except String (List UInt8) → List UInt8
  | .ok bs => bs
  | .error _ => []

/-- The bytes that a read takes off its source are sifted into those it hands out, and the next read
goes on in the state behind them. -/
theorem read_takes {most : Nat} {s s' : Sieve} {r : Except String (List UInt8)} (hmost : most ≠ 0)
    (h : s.read most = (r, s')) :
    ∃ taken, s.source.bytes = taken ++ s'.source.bytes ∧
      sift s.state taken = (handedOut r, s'.state) := by
  fun_induction read most s with
  | case1 s reason b hb =>
    cases h
    obtain ⟨hnil, hnil', -⟩ := BufferedSource.read_error hb
    exact ⟨[], by rw [hnil, hnil', List.append_nil], rfl⟩
  | case2 s b hb =>
    cases h
    exact ⟨[], (BufferedSource.read_ok hmost hb).1, rfl⟩
  | case3 s x bs b hb state hs ih =>
    obtain ⟨hbytes, -, -⟩ := BufferedSource.read_ok hmost hb
    obtain ⟨taken, htaken, hsift⟩ := ih h
    refine ⟨x :: bs ++ taken, ?_, ?_⟩
    · rw [hbytes, htaken, List.append_assoc]
    · simp only [sift_append, hs, List.nil_append, hsift]
  | case4 s x bs b hb y kept state hs =>
    cases h
    exact ⟨x :: bs, (BufferedSource.read_ok hmost hb).1, hs⟩

/-- A read hands out nothing only at the end. -/
theorem read_ok {most : Nat} {s s' : Sieve} {bs : List UInt8} (hmost : most ≠ 0)
    (h : s.read most = (.ok bs, s')) :
    s'.source.source.failure = s.source.source.failure ∧
      (bs = [] → s'.source.bytes = [] ∧ s.source.source.failure = none) := by
  fun_induction read most s with
  | case1 s reason b hb => cases h
  | case2 s b hb =>
    cases h
    obtain ⟨hbytes, hfailure, hend⟩ := BufferedSource.read_ok hmost hb
    refine ⟨hfailure, fun _ => ⟨?_, (hend rfl).2⟩⟩
    rw [← (hend rfl).1, hbytes, List.nil_append]
  | case3 s x bs' b hb state hs ih =>
    rw [← (BufferedSource.read_ok hmost hb).2.1]
    exact ih h
  | case4 s x bs' b hb y kept state hs =>
    cases h
    exact ⟨(BufferedSource.read_ok hmost hb).2.1, fun hnil => absurd hnil (List.cons_ne_nil _ _)⟩

theorem read_error {most : Nat} {s s' : Sieve} {reason : String} (hmost : most ≠ 0)
    (h : s.read most = (.error reason, s')) :
    s'.source.bytes = [] ∧ s.source.source.failure = some reason := by
  fun_induction read most s with
  | case1 s reason' b hb =>
    cases h
    exact (BufferedSource.read_error hb).2
  | case2 s b hb => cases h
  | case3 s x bs b hb state hs ih =>
    rw [← (BufferedSource.read_ok hmost hb).2.1]
    exact ih h
  | case4 s x bs b hb y kept state hs => cases h

def passing (s : Sieve) : List UInt8 := (sift s.state s.source.bytes).1

theorem passing_ofSource (b : BufferedSource) :
    (ofSource b).passing = (sift .fieldStart b.bytes).1 := rfl

theorem passing_of_read {most : Nat} {s s' : Sieve} {r : Except String (List UInt8)}
    (hmost : most ≠ 0) (h : s.read most = (r, s')) : s.passing = handedOut r ++ s'.passing := by
  obtain ⟨taken, htaken, hsift⟩ := read_takes hmost h
  simp only [passing, htaken, sift_append, hsift]

theorem passing_of_ended {s : Sieve} (h : s.source.bytes = []) : s.passing = [] := by
  rw [passing, h, sift]

theorem drainFrom_eq {most : Nat} (hmost : most ≠ 0) (taken : List (List UInt8)) (s : Sieve) :
    ∃ reads, s.drainFrom most taken = (taken.reverse ++ reads, s.source.source.failure) ∧
      reads.flatten = s.passing := by
  fun_induction drainFrom most taken s with
  | case1 taken s reason s' h =>
    obtain ⟨hend, hfailure⟩ := read_error hmost h
    refine ⟨[], by rw [hfailure, List.append_nil], ?_⟩
    rw [passing_of_read hmost h, passing_of_ended hend]
    rfl
  | case2 taken s s' h =>
    obtain ⟨-, hend⟩ := read_ok hmost h
    refine ⟨[], by rw [(hend rfl).2, List.append_nil], ?_⟩
    rw [passing_of_read hmost h, passing_of_ended (hend rfl).1]
    rfl
  | case3 taken s x bs s' h ih =>
    obtain ⟨hfailure, -⟩ := read_ok hmost h
    obtain ⟨reads, hdrain, hreads⟩ := ih
    refine ⟨(x :: bs) :: reads, ?_, ?_⟩
    · rw [hdrain, hfailure, List.reverse_cons, List.append_assoc, List.singleton_append]
    · rw [List.flatten_cons, hreads, passing_of_read hmost h]
      rfl

/-- The reads of a sieve are what passes of all bytes, in pieces, up to the failure. -/
theorem drain_eq {most : Nat} (hmost : most ≠ 0) (s : Sieve) :
    ∃ reads, s.drain most = (reads, s.source.source.failure) ∧ reads.flatten = s.passing :=
  drainFrom_eq hmost [] s

end LeadingSpace.Sieve

namespace Table

/-- Reads that do not begin with the mark lose nothing. -/
theorem content_of_no_mark (reads : List (List UInt8)) (failure : Option String)
    (h : ¬mark <+: reads.flatten) : content failure reads = (reads.flatten, failure) := by
  cases reads with
  | nil => rfl
  | cons first reads =>
    have hfirst : ¬mark <+: first := fun hp => h (hp.trans (List.prefix_append _ _))
    have hne : first ≠ mark := by
      rintro rfl
      exact hfirst (List.prefix_refl _)
    have hbegins : mark.isPrefixOf first = false := by
      rwa [← Bool.not_eq_true, List.isPrefixOf_iff_prefix]
    simp [content, hne, hbegins]

end Table
end ReplayLog
