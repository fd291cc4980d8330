import ReplayLog.Proofs.ConcatenatedSources
import ReplayLog.Proofs.SegmenterCalls

/-! # Entries within their limits

A line that continues an entry is a fault as soon as the entry is over a limit with it, so every
entry of two lines or more that is handed out before the first fault is within the limits. The line
that opens an entry is not held against them: an entry of one line may have any size. -/
namespace ReplayLog

/-- The entry is within the limits of a rule, unless it has no line but the one that opens it. -/
def Entry.Bounded (rule : SegmentRule) (e : Entry) : Prop :=
  1 < e.lineCount → e.lineCount ≤ rule.maxLines ∧ e.content.byteSize ≤ rule.maxBytes

theorem Cut.limit?_eq_none_iff {rule : SegmentRule} {e : Entry} :
    limit? rule e = none ↔ e.lineCount ≤ rule.maxLines ∧ e.content.byteSize ≤ rule.maxBytes := by
  rw [limit?]
  split
  · next h => simp [Nat.not_le.2 h]
  · next h =>
    split
    · next h' => simp [Nat.not_le.2 h']
    · next h' => simp [Nat.not_lt.1 h, Nat.not_lt.1 h']

namespace Segmenter

/-- What a call is answered with: the entry that it completes, if it completes one, or a fault. -/
def answer (s : Segmenter) : Call → Except RunFault (Option Entry)
  | .line t => (s.addLine t).1
  | .flush => .ok (s.serve .flush).1

/-- The answers to calls, which go on after a fault. -/
def answers (s : Segmenter) : List Call → List (Except RunFault (Option Entry))
  | [] => []
  | c :: calls => s.answer c :: (s.serve c).2.answers calls

variable {s : Segmenter} {opens : Text → Bool}

/-- A line is a fault exactly if it continues an entry and the entry is over a limit with it. -/
theorem addLine_eq_error_iff (h : s.rule.boundary = .marked opens) {line : Text}
    {fault : RunFault} : (s.addLine line).1 = .error fault ↔
      ∃ e limit, (s.addLine line).2.current = some e ∧ 1 < e.lineCount ∧
        Cut.limit? s.rule e.toEntry = some limit ∧ fault = .tooLarge e.startLine limit := by
  cases hl : opens line with
  | true =>
    rw [addLine_of_opens h hl]
    refine ⟨nofun, ?_⟩
    rintro ⟨e, limit, he, hcount, -⟩
    cases he
    exact absurd hcount (lt_irrefl 1)
  | false =>
    cases hc : s.current with
    | none =>
      rw [addLine_of_none h hl hc]
      exact ⟨nofun, fun ⟨e, limit, he, _⟩ => nomatch he⟩
    | some e =>
      have hcount : 1 < (e.push line).lineCount := by
        have := e.lines_pos
        simp only [OpenEntry.push, Entry.lineCount, Array.size_push]
        omega
      rw [addLine_of_some h hl hc, ← Cut.limit?_toEntry]
      constructor
      · intro hfault
        cases hlimit : Cut.limit? s.rule (e.push line).toEntry with
        | none =>
          rw [hlimit] at hfault
          cases hfault
        | some limit =>
          rw [hlimit] at hfault
          cases hfault
          exact ⟨_, limit, rfl, hcount, hlimit, rfl⟩
      · rintro ⟨grown, limit, hgrown, -, hlimit, rfl⟩
        cases hgrown
        rw [hlimit]
        rfl

def IsBounded (s : Segmenter) : Prop := ∀ e, s.current = some e → e.toEntry.Bounded s.rule

/-- A call that is no fault keeps the open entry bounded, and so is the entry that it completes. -/
theorem IsBounded.answer (h : s.rule.boundary = .marked opens) (hs : s.IsBounded) {c : Call}
    {found : Option Entry} (hc : s.answer c = .ok found) :
    (∀ e ∈ found, e.Bounded s.rule) ∧ (s.serve c).2.IsBounded := by
  have hcurrent : ∀ e ∈ s.current.map (·.toEntry), e.Bounded s.rule := by
    intro e he
    obtain ⟨o, ho, rfl⟩ := Option.map_eq_some_iff.1 he
    exact hs o ho
  cases c with
  | flush =>
    rw [Segmenter.answer, serve_flush] at hc
    rw [serve_flush]
    cases htrailing : s.rule.trailing with
    | drop =>
      rw [htrailing] at hc
      cases hc
      exact ⟨nofun, hs⟩
    | emit =>
      rw [htrailing] at hc
      cases hc
      exact ⟨hcurrent, nofun⟩
  | line t =>
    rw [Segmenter.answer] at hc
    cases hl : opens t with
    | true =>
      rw [addLine_of_opens h hl] at hc
      cases hc
      rw [serve_of_opens h hl]
      refine ⟨hcurrent, ?_⟩
      rintro _ ⟨⟩ hcount
      exact absurd hcount (lt_irrefl 1)
    | false =>
      cases hopen : s.current with
      | none =>
        rw [addLine_of_none h hl hopen] at hc
        cases hc
        rw [serve_of_none h hl hopen]
        exact ⟨nofun, nofun⟩
      | some e =>
        rw [addLine_of_some h hl hopen, ← Cut.limit?_toEntry] at hc
        rw [serve_of_some h hl hopen]
        cases hlimit : Cut.limit? s.rule (e.push t).toEntry with
        | some limit =>
          rw [hlimit] at hc
          cases hc
        | none =>
          rw [hlimit] at hc
          cases hc
          refine ⟨nofun, ?_⟩
          rintro _ ⟨⟩ -
          exact Cut.limit?_eq_none_iff.1 hlimit

/-- All entries handed out before the first fault are bounded. -/
theorem IsBounded.answers (h : s.rule.boundary = .marked opens) (hs : s.IsBounded)
    (calls : List Call) : ∀ found ∈ (Cut.readable (s.answers calls)).1, ∀ e ∈ found,
      e.Bounded s.rule := by
  induction calls generalizing s with
  | nil => nofun
  | cons c calls ih =>
    rw [Segmenter.answers]
    cases hc : s.answer c with
    | error fault => nofun
    | ok found =>
      obtain ⟨hfound, hnext⟩ := hs.answer h hc
      have hrule := rule_serve s c
      rw [← hrule] at h
      have hrest := ih h hnext
      rw [hrule] at hrest
      exact List.forall_mem_cons.2 ⟨hfound, hrest⟩

end Segmenter

namespace Cut

variable {rule : SegmentRule} {opens : Text → Bool} {lines : List Text}

/-- Lines none of which is at fault are cut into bounded entries. -/
theorem bounded_of_mem_entries (h : firstExcess? rule opens lines = none) :
    ∀ e ∈ entries opens 1 lines, e.Bounded rule := by
  induction lines using List.reverseRecOn with
  | nil => nofun
  | append_singleton lines line ih =>
    rw [firstExcess?_concat, Option.or_eq_none_iff, Option.map_eq_none_iff] at h
    obtain ⟨hbefore, hline⟩ := h
    intro e he
    cases hl : opens line with
    | true =>
      rw [entries_concat_of_opens hl, List.mem_append, List.mem_singleton] at he
      rcases he with he | rfl
      · exact ih hbefore e he
      · exact fun hcount => absurd hcount (lt_irrefl 1)
    | false =>
      rw [excess?] at hline
      rw [entries_concat_of_not_opens hl] at he hline
      cases hlast : (entries opens 1 lines).getLast? with
      | none =>
        rw [hlast, Option.toList_none, List.map_nil, List.append_nil] at he
        exact ih hbefore e (List.dropLast_subset _ he)
      | some last =>
        rw [hlast] at he hline
        rw [Option.toList_some, List.map_singleton, List.mem_append, List.mem_singleton] at he
        rw [Option.toList_some, List.map_singleton, List.getLast?_concat, Option.bind_some] at hline
        rcases he with he | rfl
        · exact ih hbefore e (List.dropLast_subset _ he)
        · intro hcount
          rw [if_pos hcount, Option.map_eq_none_iff] at hline
          exact limit?_eq_none_iff.1 hline

/-- The lines before the first one at fault are not at fault. -/
theorem firstExcess?_take {n : Nat} {fault : RunFault}
    (h : firstExcess? rule opens lines = some (n, fault)) :
    firstExcess? rule opens (lines.take n) = none := by
  cases hfront : firstExcess? rule opens (lines.take n) with
  | none => rfl
  | some found =>
    have hwhole := firstExcess?_append hfront (lines.drop n)
    rw [List.take_append_drop, h] at hwhole
    cases hwhole
    have hlt := (exists_of_firstExcess? hfront).1
    rw [List.length_take] at hlt
    omega

/-- What arrives of lines are bounded entries of theirs. -/
theorem exists_of_mem_feed (rule : SegmentRule) (opens : Text → Bool) (lines : List Text)
    (failure : Option ReadFault) :
    ∀ a ∈ (feed rule opens lines failure).arrivals, ∃ e ∈ entries opens 1 lines,
      a.startLine = e.startLine ∧ a.entry = e.content ∧ e.Bounded rule := by
  cases hfirst : firstExcess? rule opens lines with
  | some found =>
    obtain ⟨n, fault⟩ := found
    simp only [feed, hfirst]
    refine List.forall_mem_map.2 fun e he => ⟨e, ?_, rfl, rfl, ?_⟩
    · exact List.dropLast_subset _
        ((dropLast_entries_mono 1 (List.take_prefix n lines)).subset he)
    · exact bounded_of_mem_entries (firstExcess?_take hfirst) e (List.dropLast_subset _ he)
  | none =>
    have hbounded := bounded_of_mem_entries hfirst
    have hcomplete : ∀ a ∈ (entries opens 1 lines).dropLast.map arrival,
        ∃ e ∈ entries opens 1 lines,
          a.startLine = e.startLine ∧ a.entry = e.content ∧ e.Bounded rule := by
      refine List.forall_mem_map.2 fun e he => ?_
      have hmem := List.dropLast_subset _ he
      exact ⟨e, hmem, rfl, rfl, hbounded e hmem⟩
    cases failure with
    | some fault =>
      simp only [feed, hfirst]
      exact hcomplete
    | none =>
      simp only [feed, hfirst]
      cases rule.trailing with
      | drop => exact hcomplete
      | emit =>
        refine List.forall_mem_append.2 ⟨hcomplete, List.forall_mem_map.2 fun e he => ?_⟩
        have hmem := List.mem_of_getLast? (Option.mem_toList.1 he)
        exact ⟨e, hmem, rfl, rfl, hbounded e hmem⟩

end Cut

namespace Progress

variable {α : Type} {c : Converter α} {p : Progress} {line : Nat} {shown : Text}
  {fault : EntryFault}

/-- Settling an outcome fails where the sink does and for nothing in an entry. -/
theorem settle_ne_malformed (p : Progress) (l : Layout) (o : Outcome) :
    (p.settle l o).1 ≠ .error (.fault (.malformed line shown fault)) := by
  obtain ⟨tally, writer, remarks⟩ := p
  cases o with
  | emit r =>
    rw [settle]
    rcases writer.write l r with ⟨refusal | _, writer⟩ <;> intro h <;> cases h
  | ignore reason =>
    intro h
    cases h
  | empty =>
    intro h
    cases h

theorem malformed_of_take {a : Arrival α}
    (h : (p.take c a).1 = .error (.fault (.malformed line shown fault))) :
    a.startLine = line ∧ c.render a.entry = shown ∧ c.convert a.entry = .error (.fault fault) := by
  rw [take] at h
  cases hc : c.convert a.entry with
  | ok outcome =>
    rw [hc] at h
    exact absurd h (settle_ne_malformed (p.atLine a.linesRead) c.layout outcome)
  | error halt =>
    rw [hc] at h
    cases halt with
    | overflow o => cases h
    | fault f =>
      cases h
      exact ⟨rfl, rfl, rfl⟩

/-- What stops a run as malformed is one of its entries. -/
theorem exists_malformed_of_takeAll {as : List (Arrival α)}
    (h : (p.takeAll c as).1 = .error (.fault (.malformed line shown fault))) :
    ∃ a ∈ as, a.startLine = line ∧ c.render a.entry = shown ∧
      c.convert a.entry = .error (.fault fault) := by
  induction as generalizing p with
  | nil => cases h
  | cons a as ih =>
    rw [takeAll] at h
    rcases htake : p.take c a with ⟨stop | _, q⟩ <;> rw [htake] at h
    · have htaken : (p.take c a).1 = .error (.fault (.malformed line shown fault)) := by
        rw [htake]
        exact h
      exact ⟨a, List.mem_cons_self, malformed_of_take htaken⟩
    · obtain ⟨a', ha', hfault⟩ := ih h
      exact ⟨a', List.mem_cons_of_mem _ ha', hfault⟩

theorem exists_malformed_of_takeFeed {feed : Feed α}
    (hending : feed.ending ≠ .failed (.malformed line shown fault))
    (h : (p.takeFeed c feed).1 = .error (.fault (.malformed line shown fault))) :
    ∃ a ∈ feed.arrivals, a.startLine = line ∧ c.render a.entry = shown ∧
      c.convert a.entry = .error (.fault fault) := by
  rw [takeFeed] at h
  rcases htake : p.takeAll c feed.arrivals with ⟨stop | _, q⟩ <;> rw [htake] at h
  · have htaken : (p.takeAll c feed.arrivals).1 =
        .error (.fault (.malformed line shown fault)) := by
      rw [htake]
      exact h
    exact exists_malformed_of_takeAll htaken
  · dsimp only at h
    generalize feed.ending = ending at h hending
    cases ending with
    | failed f =>
      cases h
      exact absurd rfl hending
    | finished preamble dropped => cases h

/-- The flush at the end of a run finds no fault in an entry. -/
theorem malformed_of_close {taken : Result × Progress}
    (h : (close taken).1 = .error (.fault (.malformed line shown fault))) :
    taken.1 = .error (.fault (.malformed line shown fault)) := by
  obtain ⟨r, p⟩ := taken
  rcases r with (f | o) | _
  · simp only [close] at h
    split at h
    · exact h
    · cases h
  · cases h
  · simp only [close] at h
    split at h <;> cases h

end Progress

namespace Settings

variable {s : Settings} {p : Pattern}

/-- The entries of a source of several lines each that are converted are bounded. -/
theorem exists_of_mem_verdicts (hp : s.dialect.boundary? = some p) (b : BufferedSource) :
    ∀ v ∈ (s.account b).verdicts,
      ∃ e ∈ Cut.entries p.opens 1 ((s.readLines b).1.map Text.trim),
        v.line = e.startLine ∧ v.shown = e.content ∧ e.Bounded (s.segmentRule p) := by
  have hfeed := Cut.exists_of_mem_feed (s.segmentRule p) p.opens
    ((s.readLines b).1.map Text.trim) (s.readLines b).2
  rw [account]
  rw [readLines] at hfeed ⊢
  generalize hd : s.dialect = d at hp
  cases d with
  | accessLog | nodeLog =>
    cases hp
    exact List.forall_mem_map.2 hfeed
  | sqlAudit | serviceAudit | serviceExport => cases hp

theorem stop_ne_malformed (hp : s.dialect.boundary? = some p) (b : BufferedSource) (line : Nat)
    (shown : Text) (fault : EntryFault) :
    (s.account b).stop ≠ some (.malformed line shown fault) := by
  intro h
  rw [account] at h
  generalize hd : s.dialect = d at h hp
  cases d with
  | accessLog | nodeLog =>
    rcases Cut.ending_feed (Ending.fault?_eq_some_iff.1 h) with ⟨_, _, heq⟩ | ⟨_, _, heq⟩ <;>
      cases heq
  | sqlAudit | serviceAudit | serviceExport => cases hp

/-- The entry that a run reports as malformed is one of those that are converted. -/
theorem exists_malformed_of_run (hp : s.dialect.boundary? = some p) {b : BufferedSource}
    {w : Writer} {line : Nat} {shown : Text} {fault : EntryFault}
    (h : (s.run b w).1 = .error (.fault (.malformed line shown fault))) :
    ∃ v ∈ (s.account b).verdicts, v.line = line ∧ v.shown = shown ∧
      v.outcome = .error (.fault fault) := by
  have hstop := stop_ne_malformed hp b line shown fault
  obtain ⟨α, c, feed, htake, haccount, -⟩ := s.exists_feed b
  have htaken := Progress.malformed_of_close h
  rw [htake] at htaken
  rw [haccount] at hstop ⊢
  have hending : feed.ending ≠ .failed (.malformed line shown fault) :=
    fun hending => hstop (Ending.fault?_eq_some_iff.2 hending)
  obtain ⟨a, ha, hline, hshown, houtcome⟩ := Progress.exists_malformed_of_takeFeed hending htaken
  exact ⟨_, List.mem_map_of_mem ha, hline, hshown, houtcome⟩

end Settings

/-- Whatever the calls, a line is a fault exactly if it continues an entry that is over a limit with
it, and the fault names the line which that entry starts on. So an entry of two lines or more is
handed out before the first fault only within the limits, and a run converts, writes and reports
none above them. -/
theorem entries_within_limits (opens : Text → Bool) (trailing : Trailing)
    (maxLines maxBytes : Nat) (calls : List Segmenter.Call) (s : Settings) {p : Pattern}
    (hp : s.dialect.boundary? = some p) (b : BufferedSource) (w : Writer) :
    let start := Segmenter.start ⟨.marked opens, trailing, maxLines, maxBytes⟩
    (∀ line fault,
      let served := (start.serveAll calls).2.addLine line
      served.1 = .error fault ↔ ∃ e limit, served.2.current = some e ∧ 1 < e.lineCount ∧
        Cut.limit? start.rule e.toEntry = some limit ∧ fault = .tooLarge e.startLine limit) ∧
    (∀ found ∈ (Cut.readable (start.answers calls)).1, ∀ e ∈ found, 1 < e.lineCount →
      e.lineCount ≤ maxLines ∧ e.content.byteSize ≤ maxBytes) ∧
    (∀ v ∈ (s.account b).verdicts,
      ∃ e ∈ Cut.entries p.opens 1 ((s.readLines b).1.map Text.trim),
        v.line = e.startLine ∧ v.shown = e.content ∧ (1 < e.lineCount →
          e.lineCount ≤ s.maxEntryLines ∧ e.content.byteSize ≤ s.maxEntryBytes)) ∧
    (∃ records : List Record, (s.run b w).2.writer.sink.lines.toList =
        w.sink.lines.toList ++ records.map s.dialect.layout.line ∧
      ∀ r ∈ records, ∃ v ∈ (s.account b).verdicts, v.outcome = .ok (.emit r)) ∧
    (∀ line shown fault, (s.run b w).1 = .error (.fault (.malformed line shown fault)) →
      ∃ v ∈ (s.account b).verdicts, v.line = line ∧ v.shown = shown ∧
        v.outcome = .error (.fault fault)) := by
  intro start
  have hrule : (start.serveAll calls).2.rule = start.rule := Segmenter.rule_serveAll start calls
  have hboundary : (start.serveAll calls).2.rule.boundary = .marked opens := by rw [hrule]; rfl
  obtain ⟨records, hfront, hlines⟩ := s.run_stores b w
  refine ⟨?_, Segmenter.IsBounded.answers (s := start) rfl nofun calls,
    Settings.exists_of_mem_verdicts hp b, ⟨records, hlines, ?_⟩, ?_⟩
  · intro line fault
    rw [← hrule]
    exact Segmenter.addLine_eq_error_iff hboundary
  · exact fun r hr => Account.exists_of_mem_records (hfront.subset hr)
  · intro line shown fault
    exact Settings.exists_malformed_of_run hp

/-- A line that opens an entry is taken although it is over a limit by itself, and so it is handed
out. -/
theorem answers_overgrownOpening :
    let rule : SegmentRule := ⟨.marked (·.head? == some '#'), .emit, 1, 2⟩
    let e : Entry := ⟨1, #["#abc".toList]⟩
    rule.maxBytes < e.content.byteSize ∧
      (Segmenter.start rule).answers [.line "#abc".toList, .flush] = [.ok none, .ok (some e)] := by
  decide +kernel

/-- A second line carries an entry over a limit of one line, and its fault names the first line. Of
two entries, one of which is over that limit, only the other one is converted. -/
theorem entries_within_limits_overgrownLog :
    let rule : SegmentRule := ⟨.marked (·.head? == some '#'), .drop, 1, 9⟩
    let s : Settings := { dialect := .accessLog, zone := .fixed 0, maxEntryLines := 1 }
    let lines := (s.readLines Settings.overgrownLog).1.map Text.trim
    (((Segmenter.start rule).serveAll [.line "#a".toList]).2.addLine "b".toList).1 =
        .error (.tooLarge 1 (.lines 1)) ∧
      s.dialect.boundary? = some AccessLog.boundary ∧
      (s.account Settings.overgrownLog).verdicts.map Verdict.line = [2] ∧
      ∀ v ∈ (s.account Settings.overgrownLog).verdicts,
        ∃ e ∈ Cut.entries AccessLog.boundary.opens 1 lines,
          v.line = e.startLine ∧ v.shown = e.content ∧ (1 < e.lineCount →
            e.lineCount ≤ s.maxEntryLines ∧ e.content.byteSize ≤ s.maxEntryBytes) := by
  intro rule s lines
  have hp : s.dialect.boundary? = some AccessLog.boundary := rfl
  obtain ⟨hline, -, hverdicts, -⟩ := entries_within_limits (·.head? == some '#') .drop 1 9
    [.line "#a".toList] s hp Settings.overgrownLog ⟨{}, 1, 0⟩
  have hover : Cut.limit? rule ⟨1, #["#a".toList, "b".toList]⟩ = some (.lines 1) := by decide
  exact ⟨(hline _ _).2 ⟨_, _, rfl, by decide, hover, rfl⟩, hp, by decide +kernel, hverdicts⟩

end ReplayLog
