import Mathlib.Algebra.Ring.Nat
import Mathlib.Data.Nat.Find
import ReplayLog.Proofs.SieveDrain

/-! # Calls of a sieve

A sieve may be read in any sizes, and it can be read on when its source has failed and goes on. What
it hands out up to the end is what one sifting of all the bytes keeps, whatever the sizes, the cuts
of the sources and the places of their failures are, for at every call the bytes handed out and the
state are those of one sifting of the bytes taken. -/
namespace ReplayLog

theorem Source.length_of_read {most : Nat} {s s' : Source} {bs : List UInt8}
    (h : s.read most = (.ok bs, s')) : bs.length ≤ most := by
  unfold read at h
  split at h
  · split at h <;> cases h
    exact Nat.zero_le most
  · split at h
    · next hdrop =>
      cases h
      exact List.drop_eq_nil_iff.1 hdrop
    · cases h
      exact List.length_take_le _ _

theorem BufferedSource.length_of_read {most : Nat} {b b' : BufferedSource} {bs : List UInt8}
    (h : b.read most = (.ok bs, b')) : bs.length ≤ most := by
  unfold read at h
  split at h
  · generalize hs : b.source.read most = p at h
    obtain ⟨r, s'⟩ := p
    cases h
    exact Source.length_of_read hs
  · split at h <;> cases h
    exact List.length_take_le _ _

namespace LeadingSpace

open Sieve (handedOut)

theorem length_sift_le (s : State) (bs : List UInt8) : (sift s bs).1.length ≤ bs.length := by
  induction bs generalizing s with
  | nil => exact Nat.le_refl 0
  | cons b bs ih =>
    have hrest := ih (s.next b)
    simp only [sift, List.length_cons]
    split
    · exact Nat.succ_le_succ hrest
    · exact Nat.le_succ_of_le hrest

theorem Sieve.length_of_read {most : Nat} {s s' : Sieve} {bs : List UInt8}
    (h : s.read most = (.ok bs, s')) : bs.length ≤ most := by
  fun_induction read most s with
  | case1 s reason b hb => cases h
  | case2 s b hb =>
    cases h
    exact Nat.zero_le most
  | case3 s x bs' b hb state hs ih => exact ih h
  | case4 s x bs' b hb y kept state hs =>
    cases h
    have hkept := length_sift_le s.state (x :: bs')
    rw [hs] at hkept
    exact hkept.trans (BufferedSource.length_of_read hb)

/-- A sieve, and the sources that follow its own. Each of them takes the place of one that has
failed. -/
structure Relay where
  sieve : Sieve
  later : List BufferedSource

namespace Relay

def sources (r : Relay) : List BufferedSource := r.sieve.source :: r.later

def bytes (r : Relay) : List UInt8 := r.sources.flatMap BufferedSource.bytes

/-- Bytes not yet taken, and one more for each failure to come. -/
def size (r : Relay) : Nat := (r.sources.map BufferedSource.size).sum

/-- Every source but the last one will fail. -/
def Continued (r : Relay) : Prop := ∀ b ∈ r.sources.dropLast, b.source.failure ≠ none

structure AtEnd (r : Relay) : Prop where
  bytes : r.bytes = []
  failure : r.sieve.source.source.failure = none
  later : r.later = []

def resume (s : Sieve) : List BufferedSource → Relay
  | [] => ⟨s, []⟩
  | b :: later => ⟨{ s with source := b }, later⟩

def read (most : Nat) (r : Relay) : Except String (List UInt8) × Relay :=
  match r.sieve.read most with
  | (.ok bs, s) => (.ok bs, ⟨s, r.later⟩)
  | (.error reason, s) => (.error reason, resume s r.later)

section Steps

variable {most : Nat} {r r' : Relay} {a : Except String (List UInt8)} {bs : List UInt8}
  {reason : String}

theorem bytes_resume {s : Sieve} (h : s.source.bytes = []) (later : List BufferedSource) :
    (resume s later).bytes = later.flatMap BufferedSource.bytes := by
  cases later with
  | nil => simp [resume, bytes, sources, h]
  | cons b later => rfl

theorem state_resume (s : Sieve) (later : List BufferedSource) :
    (resume s later).sieve.state = s.state := by
  cases later <;> rfl

theorem size_resume_le (s : Sieve) (later : List BufferedSource) :
    (resume s later).size ≤ s.source.size + (later.map BufferedSource.size).sum := by
  cases later with
  | nil => exact Nat.le_refl _
  | cons b later => exact Nat.le_add_left _ _

theorem read_ok (h : r.read most = (.ok bs, r')) :
    ∃ s, r.sieve.read most = (.ok bs, s) ∧ r' = ⟨s, r.later⟩ := by
  unfold read at h
  split at h <;> cases h
  next s hs => exact ⟨s, hs, rfl⟩

theorem read_error (h : r.read most = (.error reason, r')) :
    ∃ s, r.sieve.read most = (.error reason, s) ∧ r' = resume s r.later := by
  unfold read at h
  split at h <;> cases h
  next s hs => exact ⟨s, hs, rfl⟩

theorem read_takes (hmost : most ≠ 0) (h : r.read most = (a, r')) :
    ∃ taken, r.bytes = taken ++ r'.bytes ∧
      sift r.sieve.state taken = (handedOut a, r'.sieve.state) := by
  cases a with
  | ok bs =>
    obtain ⟨s, hs, rfl⟩ := read_ok h
    obtain ⟨taken, htaken, hsift⟩ := Sieve.read_takes hmost hs
    refine ⟨taken, ?_, hsift⟩
    simp only [bytes, sources, List.flatMap_cons, htaken, List.append_assoc]
  | error reason =>
    obtain ⟨s, hs, rfl⟩ := read_error h
    obtain ⟨taken, htaken, hsift⟩ := Sieve.read_takes hmost hs
    have hend := (Sieve.read_error hmost hs).1
    rw [hend, List.append_nil] at htaken
    rw [bytes_resume hend, state_resume]
    exact ⟨taken, by rw [bytes, sources, List.flatMap_cons, htaken], hsift⟩

theorem size_of_read (h : r.read most = (a, r')) (ha : a ≠ .ok []) : r'.size < r.size := by
  cases a with
  | ok bs =>
    obtain ⟨s, hs, rfl⟩ := read_ok h
    exact Nat.add_lt_add_right (Sieve.size_of_read hs ha) _
  | error reason =>
    obtain ⟨s, hs, rfl⟩ := read_error h
    exact (size_resume_le s r.later).trans_lt (Nat.add_lt_add_right (Sieve.size_of_read hs ha) _)

theorem continued_of_read (hmost : most ≠ 0) (hr : r.Continued) (h : r.read most = (a, r')) :
    r'.Continued := by
  cases a with
  | ok bs =>
    obtain ⟨s, hs, rfl⟩ := read_ok h
    have hfailure := (Sieve.read_ok hmost hs).1
    obtain ⟨sieve, later⟩ := r
    cases later with
    | nil => exact fun b hb => absurd hb List.not_mem_nil
    | cons next later =>
      obtain ⟨hfails, hrest⟩ := List.forall_mem_cons.1 hr
      exact List.forall_mem_cons.2 ⟨hfailure.symm ▸ hfails, hrest⟩
  | error reason =>
    obtain ⟨s, hs, rfl⟩ := read_error h
    obtain ⟨sieve, later⟩ := r
    cases later with
    | nil => exact fun b hb => absurd hb List.not_mem_nil
    | cons next later => exact (List.forall_mem_cons.1 hr).2

/-- No bytes are handed out only when all sources have ended. -/
theorem end_of_read (hmost : most ≠ 0) (hr : r.Continued) (h : r.read most = (.ok [], r')) :
    r'.AtEnd := by
  obtain ⟨s, hs, rfl⟩ := read_ok h
  obtain ⟨hfailure, hend⟩ := Sieve.read_ok hmost hs
  obtain ⟨hbytes, hnone⟩ := hend rfl
  obtain ⟨sieve, later⟩ := r
  cases later with
  | nil => exact ⟨by simp [bytes, sources, hbytes], hfailure.trans hnone, rfl⟩
  | cons next later => exact absurd hnone (hr _ List.mem_cons_self)

end Steps

section Calls

variable (requests : Nat → Nat) (r : Relay)

/-- The relay before a call, if the calls are reads of so many bytes at most. -/
def before : Nat → Relay
  | 0 => r
  | i + 1 => ((before i).read (requests i)).2

def answer (i : Nat) : Except String (List UInt8) := ((r.before requests i).read (requests i)).1

def handed : Nat → List UInt8
  | 0 => []
  | i + 1 => handed i ++ handedOut (r.answer requests i)

variable {requests r}

theorem read_before (i : Nat) : (r.before requests i).read (requests i) =
    (r.answer requests i, r.before requests (i + 1)) := rfl

theorem continued_before (hrequests : ∀ i, requests i ≠ 0) (hr : r.Continued) (i : Nat) :
    (r.before requests i).Continued := by
  induction i with
  | zero => exact hr
  | succ i ih => exact continued_of_read (hrequests i) ih (read_before i)

theorem before_takes (hrequests : ∀ i, requests i ≠ 0) (i : Nat) :
    ∃ taken, r.bytes = taken ++ (r.before requests i).bytes ∧
      sift r.sieve.state taken = (r.handed requests i, (r.before requests i).sieve.state) := by
  induction i with
  | zero => exact ⟨[], rfl, rfl⟩
  | succ i ih =>
    obtain ⟨taken, htaken, hsift⟩ := ih
    obtain ⟨more, hmore, hthen⟩ := read_takes (hrequests i) (read_before (r := r) i)
    refine ⟨taken ++ more, ?_, ?_⟩
    · rw [htaken, hmore, List.append_assoc]
    · rw [sift_append, hsift, hthen, handed]

theorem size_before {i : Nat} (h : ∀ j < i, r.answer requests j ≠ .ok []) :
    (r.before requests i).size + i ≤ r.size := by
  induction i with
  | zero => exact Nat.le_refl _
  | succ i ih =>
    have hsize := ih fun j hj => h j (Nat.lt_succ_of_lt hj)
    have hless := size_of_read (read_before i) (h i (Nat.lt_succ_self i))
    omega

variable (requests r)

/-- There are no more calls before the first without bytes than there are bytes and failures. -/
theorem exists_end : ∃ n ≤ r.size, r.answer requests n = .ok [] ∧
    ∀ i < n, r.answer requests i ≠ .ok [] := by
  classical
  have hend : ∃ n, r.answer requests n = .ok [] := by
    by_contra hnone
    have hsize := size_before (i := r.size + 1) fun j _ => not_exists.1 hnone j
    omega
  have hmin : ∀ i < Nat.find hend, r.answer requests i ≠ .ok [] := fun i => Nat.find_min hend
  exact ⟨Nat.find hend, (Nat.le_add_left _ _).trans (size_before hmin), Nat.find_spec hend, hmin⟩

/-- The bytes handed out up to the first read without any are what one sifting of all bytes keeps,
and that read comes. A failure of a source costs no byte: before every call, those behind a failure
included, the bytes handed out and the state are those of one sifting of the bytes taken. No read
hands out more than was asked for, and one without bytes means the end of all sources. -/
theorem calls_sift_all (hrequests : ∀ i, requests i ≠ 0) (hr : r.Continued) :
    (∃ n ≤ r.size, r.answer requests n = .ok [] ∧ (∀ i < n, r.answer requests i ≠ .ok []) ∧
      r.handed requests n = (sift r.sieve.state r.bytes).1) ∧
    (∀ i, ∃ taken, r.bytes = taken ++ (r.before requests i).bytes ∧
      sift r.sieve.state taken = (r.handed requests i, (r.before requests i).sieve.state)) ∧
    (∀ i bs, r.answer requests i = .ok bs → bs.length ≤ requests i) ∧
    ∀ i, r.answer requests i = .ok [] → (r.before requests (i + 1)).AtEnd := by
  have hends (i : Nat) (hi : r.answer requests i = .ok []) : (r.before requests (i + 1)).AtEnd :=
    end_of_read (hrequests i) (continued_before hrequests hr i) (hi ▸ read_before i)
  refine ⟨?_, before_takes hrequests, ?_, hends⟩
  · obtain ⟨n, hn, hanswer, hfirst⟩ := exists_end requests r
    obtain ⟨taken, htaken, hsift⟩ := before_takes (r := r) hrequests (n + 1)
    rw [(hends n hanswer).bytes, List.append_nil] at htaken
    refine ⟨n, hn, hanswer, hfirst, ?_⟩
    rw [htaken, hsift, handed, hanswer, handedOut, List.append_nil]
  · intro i bs hi
    have hread : (r.before requests i).read (requests i) = (.ok bs, r.before requests (i + 1)) :=
      hi ▸ read_before i
    obtain ⟨s, hs, -⟩ := read_ok hread
    exact Sieve.length_of_read hs

end Calls

/-- The first source fails between two spaces that are dropped, and the second has no buffer. -/
def interrupted : Relay where
  sieve := .ofSource (.ofSource 4 (.ofReads ["a, \"x,".toUTF8.toList, " y\", ".toUTF8.toList]
    (some "interrupted")))
  later := [.ofSource 0 (.ofReads ["  ".toUTF8.toList, " b\n".toUTF8.toList] none)]

theorem calls_sift_all_interrupted :
    (∀ i, i % 3 + 1 ≠ 0) ∧ interrupted.Continued ∧
    ∃ n, interrupted.answer (fun i => i % 3 + 1) n = .ok [] ∧
      interrupted.handed (fun i => i % 3 + 1) n = "a,\"x, y\",b\n".toUTF8.toList := by
  have hrequests (i : Nat) : i % 3 + 1 ≠ 0 := Nat.succ_ne_zero _
  have hcontinued : interrupted.Continued := by
    intro b hb
    rw [List.mem_singleton.1 hb]
    exact Option.some_ne_none _
  obtain ⟨⟨n, -, hend, -, hhanded⟩, -⟩ := calls_sift_all _ interrupted hrequests hcontinued
  exact ⟨hrequests, hcontinued, n, hend, hhanded.trans (by decide +kernel)⟩

end Relay
end LeadingSpace
end ReplayLog
