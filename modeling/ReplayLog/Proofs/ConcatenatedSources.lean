import ReplayLog.Proofs.AppendedLines
import ReplayLog.Proofs.StoredRecords

/-! # Sources behind sources

A source may be cut between two of its entries and converted in two runs with one writer: the sink
then holds what one run over the whole source writes, the counts of the two runs add up, and an
entry at fault in the second part is named by its line in that part. -/
namespace ReplayLog

def Halt.behind (n : Nat) : Halt RunFault → Halt RunFault
  | fault f => fault (f.behind n)
  | overflow o => overflow o

/-- The counts of two runs together. -/
instance : Add Tally where
  add t u := ⟨t.linesRead + u.linesRead, t.preamble + u.preamble, t.seen + u.seen,
    t.written + u.written, t.ignored + u.ignored⟩

attribute [ext] Tally

def Verdict.behind (n : Nat) (v : Verdict) : Verdict := ⟨v.line + n, v.shown, v.outcome⟩

theorem Verdict.halt?_behind (n : Nat) (v : Verdict) :
    (v.behind n).halt? = v.halt?.map (Halt.behind n) := by
  rw [halt?, halt?, behind]
  rcases v.outcome with (f | o) | outcome <;> rfl

namespace Account

/-- The account of the lines of two sources, from those of the sources. -/
structure Joins (n : Nat) (a b joint : Account) : Prop where
  layout : joint.layout = a.layout ∧ joint.layout = b.layout
  verdicts : joint.verdicts = a.verdicts ++ b.verdicts.map (Verdict.behind n)
  stop : joint.stop = b.stop.map (RunFault.behind n)

theorem joins_ofFeed {α : Type} (c : Converter α) {f g h : Feed α} (hjoins : f.Joins g h) :
    Joins f.linesRead (ofFeed c f) (ofFeed c g) (ofFeed c h) := by
  have hverdicts (feed : Feed α) : (ofFeed c feed).verdicts =
      feed.starts.map fun start => ⟨start.1, c.render start.2, c.convert start.2⟩ := by
    rw [Feed.starts, List.map_map]
    rfl
  have hstop (feed : Feed α) : (ofFeed c feed).stop = feed.ending.fault? := rfl
  refine ⟨⟨rfl, rfl⟩, ?_, ?_⟩
  · rw [hverdicts, hverdicts, hverdicts, hjoins.starts, List.map_append, List.map_map, List.map_map]
    rfl
  · rw [hstop, hstop, hjoins.fault?]

namespace Joins

variable {n : Nat} {a b joint : Account}

theorem result (h : Joins n a b joint) (ha : a.result = .ok ()) :
    joint.result = b.result.mapError (Halt.behind n) := by
  have hnone := List.findSome?_eq_none_iff.2 (result_eq_ok_iff.1 ha).1
  have hhalt : (b.verdicts.map (Verdict.behind n)).findSome? Verdict.halt? =
      (b.verdicts.findSome? Verdict.halt?).map (Halt.behind n) := by
    rw [List.findSome?_map, List.map_findSome?]
    congr 1
    funext v
    exact Verdict.halt?_behind n v
  rw [Account.result, Account.result, h.verdicts, h.stop, List.findSome?_append, hnone,
    Option.none_or, hhalt]
  cases b.verdicts.findSome? Verdict.halt? with
  | some halt => rfl
  | none => cases b.stop <;> rfl

theorem converted (h : Joins n a b joint) (ha : a.result = .ok ()) :
    joint.converted = a.converted ++ b.converted.map (Verdict.behind n) := by
  have hall : ∀ v ∈ a.verdicts, v.halt?.isNone = true := by
    intro v hv
    rw [(result_eq_ok_iff.1 ha).1 v hv]
    rfl
  have hisNone : (fun v : Verdict => v.halt?.isNone) ∘ Verdict.behind n =
      fun v => v.halt?.isNone := by
    funext v
    rw [Function.comp_apply, Verdict.halt?_behind, Option.isNone_map]
  rw [Account.converted, Account.converted, Account.converted, h.verdicts,
    List.takeWhile_append_of_pos hall, List.takeWhile_eq_self_iff.2 hall, List.takeWhile_map,
    hisNone]

theorem records (h : Joins n a b joint) (ha : a.result = .ok ()) :
    joint.records = a.records ++ b.records := by
  rw [Account.records, Account.records, Account.records, h.converted ha, List.filterMap_append,
    List.filterMap_map]
  rfl

theorem text (h : Joins n a b joint) (ha : a.result = .ok ()) : joint.text = a.text ++ b.text := by
  rw [Account.text, Account.text, Account.text, h.records ha, List.flatMap_append, h.layout.1,
    ← h.layout.2, h.layout.1]

theorem rejections (h : Joins n a b joint) (ha : a.result = .ok ()) :
    joint.rejections = a.rejections ++ b.rejections := by
  rw [Account.rejections, Account.rejections, Account.rejections, h.converted ha,
    List.filterMap_append, List.filterMap_map]
  rfl

end Joins
end Account

namespace Progress

/-- A run that reaches the end of its feed has counted the lines of the feed. -/
theorem lines_of_takeFeed {α : Type} {c : Converter α} {p : Progress} {feed : Feed α}
    (h : (p.takeFeed c feed).1 = .ok ()) :
    (p.takeFeed c feed).2.tally.linesRead = feed.linesRead ∧
      (p.takeFeed c feed).2.tally.preamble = feed.ending.preamble := by
  rw [takeFeed] at h ⊢
  generalize p.takeAll c feed.arrivals = taken at h ⊢
  obtain ⟨stop | _, q⟩ := taken
  · cases h
  · dsimp only at h ⊢
    generalize feed.ending = ending at h ⊢
    cases ending with
    | failed fault => cases h
    | finished preamble dropped => exact ⟨rfl, rfl⟩

theorem ok_of_close {taken : Result × Progress} (h : (close taken).1 = .ok ()) :
    taken.1 = .ok () := by
  obtain ⟨r, p⟩ := taken
  rcases r with (f | o) | _
  · simp only [close] at h
    split at h <;> cases h
  · cases h
  · rfl

end Progress

namespace Settings

def textFeed (s : Settings) (b : BufferedSource) : Feed Text :=
  let lines := (s.readLines b).1.map Text.trim
  match s.dialect.boundary? with
  | some p => Cut.feed (s.segmentRule p) p.opens lines (s.readLines b).2
  | none => Cut.lineFeed lines (s.readLines b).2

/-- A log of lines is converted in one way, whatever its source. -/
theorem exists_converter (s : Settings) (hs : s.dialect ≠ .serviceExport) :
    ∃ c : Converter Text, ∀ b : BufferedSource,
      (∀ p : Progress, s.takeSource b p = p.takeFeed c (s.textFeed b)) ∧
      s.account b = Account.ofFeed c (s.textFeed b) := by
  simp only [takeSource, account, textFeed, readLines, lines_eq_physicalLines]
  cases hdialect : s.dialect with
  | accessLog =>
    dsimp only [Dialect.boundary?]
    exact ⟨_, fun b => ⟨fun p => by rw [Cut.ofEntries_eq_feed rfl], rfl⟩⟩
  | nodeLog =>
    dsimp only [Dialect.boundary?]
    exact ⟨_, fun b => ⟨fun p => by rw [Cut.ofEntries_eq_feed rfl], rfl⟩⟩
  | sqlAudit =>
    dsimp only [Dialect.boundary?]
    exact ⟨_, fun b => ⟨fun p => by rw [Cut.ofLines_eq_lineFeed], rfl⟩⟩
  | serviceAudit =>
    dsimp only [Dialect.boundary?]
    exact ⟨_, fun b => ⟨fun p => by rw [Cut.ofLines_eq_lineFeed], rfl⟩⟩
  | serviceExport => exact absurd hdialect hs

theorem fault?_of_account {s : Settings} {b : BufferedSource} {c : Converter Text}
    (hc : s.account b = Account.ofFeed c (s.textFeed b)) (h : (s.account b).result = .ok ()) :
    (s.textFeed b).ending.fault? = none := by
  have hstop := (Account.result_eq_ok_iff.1 h).2
  rw [hc] at hstop
  exact hstop

theorem unlimited_of_run (s : Settings) (b : BufferedSource) {w : Writer}
    (hw : w.sink.Unlimited) : (s.run b w).2.writer.sink.Unlimited := by
  obtain ⟨p, hrun, hadvanced⟩ := s.run_advanced b w hw
  rw [hrun]
  exact hadvanced.unlimited

/-- A run to the end of its source counts the lines of the source and what the account says of its
entries. -/
theorem tally_of_run {s : Settings} {b : BufferedSource} {c : Converter Text} {w : Writer}
    (hc : ∀ p : Progress, s.takeSource b p = p.takeFeed c (s.textFeed b))
    (hw : w.sink.Unlimited) (h : (s.run b w).1 = .ok ()) :
    (s.run b w).2.tally = ⟨(s.textFeed b).linesRead, (s.textFeed b).ending.preamble,
      (s.account b).records.length + (s.account b).rejections.length,
      (s.account b).records.length, (s.account b).rejections.length⟩ := by
  have hlines : (s.run b w).2.tally.linesRead = (s.textFeed b).linesRead ∧
      (s.run b w).2.tally.preamble = (s.textFeed b).ending.preamble := by
    have htaken := Progress.ok_of_close h
    obtain ⟨htally, -⟩ := Progress.close_counts (s.takeSource b ⟨{}, w, #[]⟩).1
      (s.takeSource b ⟨{}, w, #[]⟩).2
    rw [hc] at htaken htally
    rw [run, hc, htally]
    exact Progress.lines_of_takeFeed htaken
  obtain ⟨p, hrun, hadvanced⟩ := s.run_advanced b w hw
  rw [hrun] at hlines ⊢
  have hseen := hadvanced.seen
  have hwritten := hadvanced.written
  have hignored := hadvanced.ignored
  rw [Nat.zero_add] at hseen hwritten hignored
  exact Tally.ext hlines.1 hlines.2 hseen hwritten hignored

/-- Where a source stands behind another one, its first line opens an entry, unless each line is an
entry of its own, and the entry before it counts as complete. -/
def CutsBefore (s : Settings) (b : BufferedSource) : Prop :=
  ∀ p, s.dialect.boundary? = some p → s.trailing = .emit ∧
    ∀ item ∈ (b.lines s.encoding).head?, ∃ line, item = .ok line ∧ p.opens line.trim = true

section Joint

variable {s : Settings} {a b joint : BufferedSource}

theorem readLines_of_joint (hends : EndsLine a.shownBytes)
    (hbytes : joint.shownBytes = a.shownBytes ++ b.shownBytes)
    (hfailure : joint.shownFailure = b.shownFailure) (ha : (s.readLines a).2 = none) :
    s.readLines joint = ((s.readLines a).1 ++ (s.readLines b).1, (s.readLines b).2) := by
  have hsame := Cut.readable_physicalLines s.encoding hends a.shownFailure
  rw [readLines, hsame, Option.or_eq_none_iff] at ha
  rw [readLines, readLines, readLines, hbytes, hfailure, physicalLines_append s.encoding hends,
    Cut.readable_append, hsame, ha.1]

theorem length_readLines (ha : (s.readLines a).2 = none) :
    (s.readLines a).1.length = (a.lines s.encoding).length := by
  rw [lines_eq_physicalLines]
  rw [readLines] at ha ⊢
  generalize physicalLines s.encoding a.shownBytes a.shownFailure = items at ha ⊢
  induction items with
  | nil => rfl
  | cons item items ih =>
    cases item with
    | error fault => cases ha
    | ok line => exact congrArg Nat.succ (ih ha)

/-- Behind a cut there is nothing to read, or else a boundary line. -/
theorem begins_of_cutsBefore (h : s.CutsBefore b) {p : Pattern}
    (hp : s.dialect.boundary? = some p) :
    s.trailing = .emit ∧ Cut.Begins p.opens ((s.readLines b).1.map Text.trim) ∧
      ((s.readLines b).1.map Text.trim = [] → (s.readLines b).2 = none) := by
  obtain ⟨htrailing, hfirst⟩ := h p hp
  refine ⟨htrailing, ?_⟩
  rw [lines_eq_physicalLines] at hfirst
  rw [readLines]
  generalize physicalLines s.encoding b.shownBytes b.shownFailure = items at hfirst ⊢
  cases items with
  | nil =>
    refine ⟨?_, fun _ => rfl⟩
    intro first hhead
    cases hhead
  | cons item items =>
    obtain ⟨line, rfl, hopens⟩ := hfirst item rfl
    refine ⟨?_, ?_⟩
    · intro first hhead
      cases hhead
      exact hopens
    · intro hempty
      cases hempty

theorem textFeed_joins (hends : EndsLine a.shownBytes)
    (hbytes : joint.shownBytes = a.shownBytes ++ b.shownBytes)
    (hfailure : joint.shownFailure = b.shownFailure) (hcut : s.CutsBefore b)
    (ha : (s.textFeed a).ending.fault? = none) :
    (s.textFeed a).Joins (s.textFeed b) (s.textFeed joint) ∧
      (s.textFeed a).linesRead = (a.lines s.encoding).length := by
  cases hp : s.dialect.boundary? with
  | some p =>
    simp only [textFeed, hp] at ha ⊢
    obtain ⟨hexcess, hread⟩ := Cut.failure_of_feed ha
    obtain ⟨htrailing, hbegins, hnil⟩ := begins_of_cutsBefore hcut hp
    rw [readLines_of_joint hends hbytes hfailure hread, hread, List.map_append]
    refine ⟨Cut.feed_joins htrailing hexcess hbegins hnil, ?_⟩
    rw [(Cut.feed_emit htrailing hexcess).2.1, List.length_map, length_readLines hread]
  | none =>
    simp only [textFeed, hp] at ha ⊢
    have hread : (s.readLines a).2 = none := by
      cases hread : (s.readLines a).2 with
      | some fault =>
        rw [hread] at ha
        cases ha
      | none => rfl
    rw [readLines_of_joint hends hbytes hfailure hread, hread, List.map_append]
    exact ⟨Cut.lineFeed_joins _ _ _, by rw [← length_readLines hread]; exact List.length_map _⟩

end Joint

/-- Two runs with one writer over the two parts of a source, the first of which succeeds, write what
one run over the whole source writes. If the second one succeeds too, the counts add up. Whatever it
ends in, the one run ends in as well, with the lines of the first part added to the line it names. -/
theorem run_parts (s : Settings) {a b joint : BufferedSource} {w : Writer}
    (hs : s.dialect ≠ .serviceExport) (hw : w.sink.Unlimited) (hends : EndsLine a.shownBytes)
    (hbytes : joint.shownBytes = a.shownBytes ++ b.shownBytes)
    (hfailure : joint.shownFailure = b.shownFailure) (hcut : s.CutsBefore b)
    (ha : (s.run a w).1 = .ok ()) :
    let first := s.run a w
    let second := s.run b first.2.writer
    let whole := s.run joint w
    whole.2.writer.sink.text = second.2.writer.sink.text ∧
    (second.1 = .ok () → whole.2.tally = first.2.tally + second.2.tally) ∧
    whole.1 = second.1.mapError (Halt.behind (a.lines s.encoding).length) := by
  intro first second whole
  obtain ⟨c, hc⟩ := s.exists_converter hs
  obtain ⟨hresult, htext⟩ := s.run_text a hw
  have hw' : first.2.writer.sink.Unlimited := s.unlimited_of_run a hw
  obtain ⟨hresult', htext'⟩ := s.run_text b hw'
  obtain ⟨hresult'', htext''⟩ := s.run_text joint hw
  have hok : (s.account a).result = .ok () := hresult ▸ ha
  obtain ⟨hfeeds, hcount⟩ :=
    textFeed_joins hends hbytes hfailure hcut (fault?_of_account (hc a).2 hok)
  have hjoins : Account.Joins (a.lines s.encoding).length (s.account a) (s.account b)
      (s.account joint) := by
    rw [(hc a).2, (hc b).2, (hc joint).2, ← hcount]
    exact Account.joins_ofFeed c hfeeds
  have hend : whole.1 = second.1.mapError (Halt.behind (a.lines s.encoding).length) := by
    rw [hresult'', hresult', hjoins.result hok]
  refine ⟨?_, ?_, hend⟩
  · rw [htext'', htext', htext, hjoins.text hok, List.append_assoc]
  · intro hb
    have hwhole : whole.1 = .ok () := by
      rw [hend, hb]
      rfl
    have hrecords := congrArg List.length (hjoins.records hok)
    have hrejections := congrArg List.length (hjoins.rejections hok)
    rw [List.length_append] at hrecords hrejections
    have hfault := fault?_of_account (hc joint).2 (hresult'' ▸ hwhole)
    rw [tally_of_run (hc a).1 hw ha, tally_of_run (hc b).1 hw' hb,
      tally_of_run (hc joint).1 hw hwhole, hrecords, hrejections, hfeeds.linesRead,
      hfeeds.preamble hfault]
    exact Tally.ext rfl rfl (Nat.add_add_add_comm _ _ _ _) rfl rfl

def logPart (part : String) : BufferedSource :=
  .ofSource 64 (.ofReads [Text.toUtf8 part.toList] none)

theorem shown_logPart (part : String) : (logPart part).shownBytes = Text.toUtf8 part.toList ∧
    (logPart part).shownFailure = none := by
  obtain ⟨hbytes, hfailure⟩ := BufferedSource.shown_ofReads (by decide : 64 ≠ 0)
    [Text.toUtf8 part.toList] none
  exact ⟨hbytes.trans List.flatten_singleton, hfailure⟩

/-- The entry at fault starts on the first line of its part and on the third one of the whole. -/
theorem run_parts_logPart :
    let s : Settings := { dialect := .accessLog, trailing := .emit, zone := .fixed 0 }
    let w : Writer := ⟨{}, 1, 0⟩
    let before := "x\n[2023-02-10 00:03:15,398] I [t] L - C T=4 [2023-02-10 00:03:15 398] 7 a\\;\n"
    let behind := "[2023-02-10 00:03:16,000] y"
    s.dialect ≠ .serviceExport ∧ w.sink.Unlimited ∧ EndsLine (logPart before).shownBytes ∧
      s.CutsBefore (logPart behind) ∧ (s.run (logPart before) w).1 = .ok () ∧
      (s.run (logPart (before ++ behind)) w).1 = .error (.fault
        (.malformed 3 behind.toList (.missingPiece AccessLog.headerRule 3))) := by
  intro s w before behind
  have hw : w.sink.Unlimited := ⟨rfl, rfl⟩
  have hends : EndsLine (logPart before).shownBytes := by decide +kernel
  have hcut : s.CutsBefore (logPart behind) := by
    have hlines : (logPart behind).lines s.encoding = [.ok behind.toList] := by
      rw [lines_eq_physicalLines]
      decide +kernel
    intro p hp
    cases hp
    refine ⟨rfl, ?_⟩
    rw [hlines]
    intro item hitem
    cases hitem
    exact ⟨_, rfl, by decide +kernel⟩
  have hfirst : (s.run (logPart before) w).1 = .ok () :=
    (run_text s _ hw).1.trans (by decide +kernel)
  have hbytes : (logPart (before ++ behind)).shownBytes =
      (logPart before).shownBytes ++ (logPart behind).shownBytes := by
    rw [(shown_logPart _).1, (shown_logPart _).1, (shown_logPart _).1, String.toList_append,
      Text.toUtf8_append]
  have hfailure : (logPart (before ++ behind)).shownFailure = (logPart behind).shownFailure := by
    rw [(shown_logPart _).2, (shown_logPart _).2]
  obtain ⟨-, -, hend⟩ := s.run_parts (by decide) hw hends hbytes hfailure hcut hfirst
  have hlines : ((logPart before).lines s.encoding).length = 2 := by
    rw [lines_eq_physicalLines]
    decide +kernel
  have hsecond : (s.account (logPart behind)).result = .error (.fault
      (.malformed 1 behind.toList (.missingPiece AccessLog.headerRule 3))) := by
    decide +kernel
  refine ⟨by decide, hw, hends, hcut, hfirst, hend.trans ?_⟩
  rw [(run_text s _ (s.unlimited_of_run _ hw)).1, hsecond, hlines]
  rfl

end Settings
end ReplayLog
