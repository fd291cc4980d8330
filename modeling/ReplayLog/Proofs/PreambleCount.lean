import ReplayLog.Proofs.ConcatenatedSources

/-! # The preamble of a run

The lines before the first entry are counted while lines are gathered, but a run takes the count
over only when it has come to the end of its source. A flush that is refused after that does not
change it. A run that was stopped earlier has no count, however many such lines it read. -/
namespace ReplayLog

namespace Progress

variable {α : Type}

theorem preamble_settle (p : Progress) (l : Layout) (o : Outcome) :
    (p.settle l o).2.tally.preamble = p.tally.preamble := by
  obtain ⟨tally, writer, remarks⟩ := p
  cases o with
  | emit r =>
    rw [settle]
    rcases writer.write l r with ⟨fault | _, writer⟩ <;> rfl
  | ignore reason => rfl
  | empty => rfl

/-- An entry does not touch the count. -/
theorem preamble_take (c : Converter α) (p : Progress) (a : Arrival α) :
    (p.take c a).2.tally.preamble = p.tally.preamble := by
  rw [take]
  rcases c.convert a.entry with (f | o) | outcome
  · rfl
  · rfl
  · exact preamble_settle (p.atLine a.linesRead) c.layout outcome

/-- Taking entries leaves the count of the lines before them as it was. -/
theorem preamble_takeAll (c : Converter α) (p : Progress) (as : List (Arrival α)) :
    (p.takeAll c as).2.tally.preamble = p.tally.preamble := by
  induction as generalizing p with
  | nil => rfl
  | cons a as ih =>
    have hstep := preamble_take c p a
    rw [takeAll]
    generalize p.take c a = step at hstep
    obtain ⟨stop | _, q⟩ := step
    · exact hstep
    · exact (ih q).trans hstep

/-- What stops a run before the end of its feed leaves the count as it was. -/
theorem preamble_takeFeed {c : Converter α} {p : Progress} {feed : Feed α} {stop : Halt RunFault}
    (h : (p.takeFeed c feed).1 = .error stop) :
    (p.takeFeed c feed).2.tally.preamble = p.tally.preamble := by
  have hall := preamble_takeAll c p feed.arrivals
  rw [takeFeed] at h ⊢
  generalize p.takeAll c feed.arrivals = taken at h hall ⊢
  obtain ⟨stop' | _, q⟩ := taken
  · exact hall
  · dsimp only at h ⊢
    generalize feed.ending = ending at h ⊢
    cases ending with
    | failed fault => exact hall
    | finished preamble dropped => cases h

/-- A feed that is taken to its end does not fail. -/
theorem fault?_of_takeFeed {c : Converter α} {p : Progress} {feed : Feed α}
    (h : (p.takeFeed c feed).1 = .ok ()) : feed.ending.fault? = none := by
  rw [takeFeed] at h
  generalize p.takeAll c feed.arrivals = taken at h
  obtain ⟨stop | _, q⟩ := taken
  · cases h
  · dsimp only at h
    generalize feed.ending = ending at h ⊢
    cases ending with
    | failed fault => cases h
    | finished preamble dropped => rfl

end Progress

/-- A feed that does not fail is that of all the lines, and it counts those that open no entry
before the first that does. -/
theorem Cut.counts_of_feed {rule : SegmentRule} {opens : Text → Bool} {lines : List Text}
    {failure : Option ReadFault} (h : (feed rule opens lines failure).ending.fault? = none) :
    (feed rule opens lines failure).linesRead = lines.length ∧
      (feed rule opens lines failure).ending.preamble = (lines.takeWhile (!opens ·)).length := by
  obtain ⟨hfirst, rfl⟩ := failure_of_feed h
  simp only [feed, hfirst]
  cases rule.trailing <;> exact ⟨rfl, rfl⟩

namespace Settings

/-- A run has come to the end of its source unless an entry, a line or the sink stopped it. -/
def ReachesEnd (s : Settings) (b : BufferedSource) (w : Writer) : Prop :=
  (s.takeSource b ⟨{}, w, #[]⟩).1 = .ok ()

section Boundary

variable {s : Settings} {p : Pattern} {b : BufferedSource} {w : Writer}

theorem exists_converter_of_boundary (hp : s.dialect.boundary? = some p) (b : BufferedSource) :
    ∃ c : Converter Text, ∀ q : Progress, s.takeSource b q = q.takeFeed c (s.textFeed b) := by
  have hs : s.dialect ≠ .serviceExport := by
    intro hs
    rw [hs] at hp
    cases hp
  obtain ⟨c, hc⟩ := s.exists_converter hs
  exact ⟨c, (hc b).1⟩

theorem tally_run (s : Settings) (b : BufferedSource) (w : Writer) :
    (s.run b w).2.tally = (s.takeSource b ⟨{}, w, #[]⟩).2.tally :=
  (Progress.close_counts (s.takeSource b ⟨{}, w, #[]⟩).1 (s.takeSource b ⟨{}, w, #[]⟩).2).1

theorem tally_of_reachesEnd (hp : s.dialect.boundary? = some p) (h : s.ReachesEnd b w) :
    let lines := (s.readLines b).1.map Text.trim
    (s.run b w).2.tally.linesRead = lines.length ∧
      (s.run b w).2.tally.preamble = (lines.takeWhile (!p.opens ·)).length := by
  obtain ⟨c, hc⟩ := exists_converter_of_boundary hp b
  have htextFeed : s.textFeed b = Cut.feed (s.segmentRule p) p.opens
      ((s.readLines b).1.map Text.trim) (s.readLines b).2 := by
    rw [textFeed, hp]
  rw [ReachesEnd, hc] at h
  obtain ⟨hread, hpreamble⟩ := Progress.lines_of_takeFeed h
  have hfault := Progress.fault?_of_takeFeed h
  rw [htextFeed] at hfault
  obtain ⟨hlength, hcount⟩ := Cut.counts_of_feed hfault
  rw [← htextFeed] at hlength hcount
  rw [tally_run, hc]
  exact ⟨hread.trans hlength, hpreamble.trans hcount⟩

theorem preamble_of_not_reachesEnd (hp : s.dialect.boundary? = some p)
    (h : ¬ s.ReachesEnd b w) : (s.run b w).2.tally.preamble = 0 := by
  obtain ⟨c, hc⟩ := exists_converter_of_boundary hp b
  rw [ReachesEnd, hc] at h
  rw [tally_run, hc]
  cases hr : (Progress.takeFeed c ⟨{}, w, #[]⟩ (s.textFeed b)).1 with
  | ok _ => exact absurd hr h
  | error stop => exact Progress.preamble_takeFeed hr

end Boundary

/-- A run counts the lines it has read before the first that opens an entry if it comes to the end
of its source, and also where only the flush behind that is refused. A run that is stopped before
counts none of them, which is right only if there is none. -/
theorem run_counts_preamble (s : Settings) {p : Pattern} (hp : s.dialect.boundary? = some p)
    (b : BufferedSource) (w : Writer) :
    let lines := (s.readLines b).1.map Text.trim
    let tally := (s.run b w).2.tally
    let before := (lines.take tally.linesRead).takeWhile (!p.opens ·)
    ((s.run b w).1 = .ok () → s.ReachesEnd b w) ∧
    (s.ReachesEnd b w → tally.linesRead = lines.length ∧ tally.preamble = before.length) ∧
    (¬ s.ReachesEnd b w → tally.preamble = 0) ∧
    (tally.preamble = before.length ↔ s.ReachesEnd b w ∨ before = []) := by
  intro lines tally before
  have hreached : s.ReachesEnd b w →
      tally.linesRead = lines.length ∧ tally.preamble = before.length := by
    intro h
    obtain ⟨hread, hpreamble⟩ := tally_of_reachesEnd hp h
    have hall : lines.take tally.linesRead = lines := List.take_of_length_le (le_of_eq hread.symm)
    refine ⟨hread, hpreamble.trans ?_⟩
    simp only [before, hall]
    rfl
  have hstopped : ¬ s.ReachesEnd b w → tally.preamble = 0 := preamble_of_not_reachesEnd hp
  refine ⟨Progress.ok_of_close, hreached, hstopped, ?_, ?_⟩
  · intro hcount
    by_cases h : s.ReachesEnd b w
    · exact .inl h
    · exact .inr (List.length_eq_zero_iff.1 (hcount.symm.trans (hstopped h)))
  · rintro (h | hnil)
    · exact (hreached h).2
    · by_cases h : s.ReachesEnd b w
      · exact (hreached h).2
      · rw [hstopped h, hnil]
        rfl

/-- A run that is stopped at the limit of its second entry has no count of the line of preamble it
has read. -/
theorem run_overgrownLog_without_preamble :
    let s : Settings := { dialect := .accessLog, zone := .fixed 0, maxEntryLines := 1 }
    let run := s.run overgrownLog ⟨{}, 1, 0⟩
    run.1 = .error (.fault (.tooLarge 3 (.lines 1))) ∧ run.2.tally.linesRead = 4 ∧
      (((s.readLines overgrownLog).1.map Text.trim).take 4).takeWhile
        (!AccessLog.boundary.opens ·) = ["x".toList] ∧
      run.2.tally.preamble = 0 := by
  decide +kernel

/-- With room for the second line of that entry the line of preamble is counted. -/
theorem run_counts_preamble_overgrownLog :
    let s : Settings := { dialect := .accessLog, zone := .fixed 0, maxEntryLines := 2 }
    s.dialect.boundary? = some AccessLog.boundary ∧ s.ReachesEnd overgrownLog ⟨{}, 1, 0⟩ ∧
      (s.run overgrownLog ⟨{}, 1, 0⟩).2.tally.preamble = 1 := by
  intro s
  have hp : s.dialect.boundary? = some AccessLog.boundary := rfl
  have hok : (s.run overgrownLog ⟨{}, 1, 0⟩).1 = .ok () := by decide +kernel
  obtain ⟨hreaches, hcount, -, -⟩ := s.run_counts_preamble hp overgrownLog ⟨{}, 1, 0⟩
  obtain ⟨hread, hpreamble⟩ := hcount (hreaches hok)
  refine ⟨hp, hreaches hok, hpreamble.trans ?_⟩
  rw [hread, List.take_length]
  decide +kernel

end Settings
end ReplayLog
