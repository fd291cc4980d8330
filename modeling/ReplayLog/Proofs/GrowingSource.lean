import Mathlib.Data.List.DropRight
import Mathlib.Data.List.Infix
import ReplayLog.Proofs.RunAccount

/-! # Growing sources

A log may be converted while it is still being written. What a run writes that drops the open entry
is never taken back: a run over more lines writes it too, and then perhaps more. A source that fails
counts as its complete lines with the failure behind them. -/
namespace ReplayLog

def EndsLine (bs : List UInt8) : Prop := bs = [] ∨ bs.getLast? = some lineFeed

instance (bs : List UInt8) : Decidable (EndsLine bs) := inferInstanceAs (Decidable (_ ∨ _))

def completeLines (bs : List UInt8) : List UInt8 := bs.rdropWhile (· != lineFeed)

theorem endsLine_completeLines (bs : List UInt8) : EndsLine (completeLines bs) := by
  by_cases hnil : completeLines bs = []
  · exact .inl hnil
  · have hlast : ¬((completeLines bs).getLast hnil != lineFeed) = true :=
      List.rdropWhile_last_not (· != lineFeed) bs hnil
    rw [Bool.not_eq_true, bne_eq_false_iff_eq] at hlast
    exact .inr (by rw [List.getLast?_eq_some_getLast hnil, hlast])

theorem exists_completeLines_append (bs : List UInt8) :
    ∃ rest, lineFeed ∉ rest ∧ bs = completeLines bs ++ rest := by
  refine ⟨bs.rtakeWhile (· != lineFeed), ?_, (List.rdropWhile_append_rtakeWhile).symm⟩
  intro hmem
  simpa using List.mem_rtakeWhile_imp hmem

private theorem physicalLines_append_of_piece (e : Encoding) {piece as : List UInt8}
    (hpiece : lineFeed ∉ piece)
    (has : EndsLine (piece ++ as)) (bs : List UInt8) (failure : Option String) :
    physicalLines e (piece ++ as ++ bs) failure =
      physicalLines e (piece ++ as) none ++ physicalLines e bs failure := by
  induction as generalizing piece with
  | nil =>
    rw [List.append_nil] at has ⊢
    rcases has with rfl | hlast
    · rw [physicalLines_of_not_mem e hpiece]
      rfl
    · exact absurd (List.mem_of_getLast? hlast) hpiece
  | cons a as ih =>
    by_cases ha : a = lineFeed
    · subst ha
      have hrest : EndsLine ([] ++ as) := by
        cases as with
        | nil => exact .inl rfl
        | cons a as => simpa [EndsLine] using has
      rw [List.append_assoc, List.cons_append, physicalLines_append_lineFeed e hpiece,
        physicalLines_append_lineFeed e hpiece, List.cons_append]
      exact congrArg _ (ih List.not_mem_nil hrest)
    · have hlonger : lineFeed ∉ piece ++ [a] := by simpa [hpiece] using Ne.symm ha
      rw [List.append_cons] at has ⊢
      exact ih hlonger has

/-- Behind a line feed reading starts afresh. -/
theorem physicalLines_append (e : Encoding) {as : List UInt8} (h : EndsLine as) (bs : List UInt8)
    (failure : Option String) :
    physicalLines e (as ++ bs) failure = physicalLines e as none ++ physicalLines e bs failure := by
  rw [← List.nil_append as] at h
  exact physicalLines_append_of_piece e List.not_mem_nil h bs failure

namespace Cut

theorem readable_append {ε α : Type} (items more : List (Except ε α)) :
    readable (items ++ more) = match (readable items).2 with
      | some fault => ((readable items).1, some fault)
      | none => ((readable items).1 ++ (readable more).1, (readable more).2) := by
  induction items with
  | nil => rfl
  | cons item items ih =>
    cases item with
    | error fault => rfl
    | ok a =>
      rw [List.cons_append, readable, ih, readable]
      dsimp only
      split <;> rfl

/-- A failure behind complete lines comes last. -/
theorem readable_physicalLines (e : Encoding) {as : List UInt8} (h : EndsLine as)
    (failure : Option String) :
    readable (physicalLines e as failure) = ((readable (physicalLines e as none)).1,
      (readable (physicalLines e as none)).2.or (failure.map .refused)) := by
  have hsplit := physicalLines_append e h [] failure
  rw [List.append_nil, physicalLines_of_not_mem _ List.not_mem_nil] at hsplit
  rw [hsplit, readable_append]
  cases (readable (physicalLines e as none)).2 with
  | some fault => rfl
  | none => cases failure <;> simp [readable]

variable {rule : SegmentRule} {opens : Text → Bool} {lines lines' : List Text}

/-- Only the last entry can still change. -/
theorem dropLast_entries_mono (n : Nat) (h : lines <+: lines') :
    (entries opens n lines).dropLast <+: (entries opens n lines').dropLast := by
  obtain ⟨more, rfl⟩ := h
  induction more using List.reverseRecOn with
  | nil =>
    rw [List.append_nil]
  | append_singleton more line ih =>
    refine ih.trans ?_
    rw [← List.append_assoc]
    cases hl : opens line with
    | true =>
      rw [entries_concat_of_opens hl, List.dropLast_concat]
      exact List.dropLast_prefix _
    | false =>
      rw [entries_concat_of_not_opens hl]
      cases hlast : (entries opens n (lines ++ more)).getLast? with
      | none =>
        rw [List.getLast?_eq_none_iff.1 hlast]
        exact List.prefix_refl _
      | some e =>
        rw [Option.toList_some, List.map_singleton, List.dropLast_concat]

theorem length_le_of_firstExcess? (h : firstExcess? rule opens lines = none) {more : List Text}
    {n : Nat} {fault : RunFault} (hmore : firstExcess? rule opens (lines ++ more) = some (n, fault)) :
    lines.length ≤ n := by
  induction more using List.reverseRecOn with
  | nil =>
    rw [List.append_nil, h] at hmore
    cases hmore
  | append_singleton more line ih =>
    rw [← List.append_assoc, firstExcess?_concat] at hmore
    cases hfirst : firstExcess? rule opens (lines ++ more) with
    | some found =>
      rw [hfirst, Option.some_or] at hmore
      exact ih (hfirst.trans hmore)
    | none =>
      rw [hfirst, Option.none_or, Option.map_eq_some_iff] at hmore
      obtain ⟨_, _, hn⟩ := hmore
      rw [← (Prod.mk.inj hn).1, List.length_append]
      exact Nat.le_add_right _ _

/-- The entries that arrive when the open one is dropped arrive from more lines, too. -/
theorem arrivals_feed_mono (failure failure' : Option ReadFault) (more : List Text) :
    (feed { rule with trailing := .drop } opens lines failure).arrivals <+:
      (feed rule opens (lines ++ more) failure').arrivals := by
  have hexcess : firstExcess? { rule with trailing := .drop } opens lines =
      firstExcess? rule opens lines := rfl
  cases hfirst : firstExcess? rule opens lines with
  | some found =>
    obtain ⟨n, fault⟩ := found
    simp only [feed, hexcess, hfirst, firstExcess?_append hfirst]
    exact (dropLast_entries_mono 1 (List.IsPrefix.take (List.prefix_append _ _) n)).map _
  | none =>
    have hleft : (feed { rule with trailing := .drop } opens lines failure).arrivals =
        (entries opens 1 lines).dropLast.map arrival := by
      cases failure <;> simp only [feed, hexcess, hfirst]
    rw [hleft]
    cases hmore : firstExcess? rule opens (lines ++ more) with
    | some found =>
      obtain ⟨n, fault⟩ := found
      have hn := length_le_of_firstExcess? hfirst hmore
      simp only [feed, hmore]
      refine (dropLast_entries_mono 1 ?_).map _
      rw [List.take_append, List.take_of_length_le hn]
      exact List.prefix_append _ _
    | none =>
      have hall : (entries opens 1 lines).dropLast.map arrival <+:
          (entries opens 1 (lines ++ more)).dropLast.map arrival :=
        (dropLast_entries_mono 1 (List.prefix_append _ _)).map _
      cases failure' with
      | some fault => simpa only [feed, hmore] using hall
      | none =>
        simp only [feed, hmore]
        cases rule.trailing with
        | drop => exact hall
        | emit => exact hall.trans (List.prefix_append _ _)

theorem arrivals_lineFeed_mono (failure failure' : Option ReadFault) (more : List Text) :
    (lineFeed lines failure).arrivals <+: (lineFeed (lines ++ more) failure').arrivals := by
  dsimp only [lineFeed]
  rw [List.zipIdx_append]
  exact List.IsPrefix.map _ (List.IsPrefix.filter _ (List.prefix_append _ _))

/-- The ending with a failure to read in the place of the end. -/
def broken (fault : ReadFault) : Ending → Ending
  | .failed fault' => .failed fault'
  | .finished _ _ => .failed (.read fault)

/-- A failure behind the lines leaves the entry open, as dropping it does. -/
theorem feed_broken (failure : Option ReadFault) (fault : ReadFault) :
    (feed rule opens lines (failure.or (some fault))).arrivals =
      (feed { rule with trailing := .drop } opens lines failure).arrivals ∧
    (feed rule opens lines (failure.or (some fault))).ending =
      broken fault (feed { rule with trailing := .drop } opens lines failure).ending := by
  have hexcess : firstExcess? { rule with trailing := .drop } opens lines =
      firstExcess? rule opens lines := rfl
  cases hfirst : firstExcess? rule opens lines with
  | some found => simp [feed, hexcess, hfirst, broken]
  | none => cases failure <;> simp [feed, hexcess, hfirst, broken]

theorem lineFeed_broken (failure : Option ReadFault) (fault : ReadFault) :
    (lineFeed lines (failure.or (some fault))).arrivals = (lineFeed lines failure).arrivals ∧
    (lineFeed lines (failure.or (some fault))).ending =
      broken fault (lineFeed lines failure).ending := by
  cases failure <;> simp [lineFeed, broken]

end Cut

namespace Account

variable {a b : Account}

theorem text_mono (hlayout : a.layout = b.layout) (h : a.verdicts <+: b.verdicts) :
    a.text <+: b.text := by
  obtain ⟨more, hmore⟩ := h
  have hconverted : a.converted <+: b.converted := by
    rw [converted, converted, ← hmore, List.takeWhile_append]
    split
    · next hall =>
      rw [(List.takeWhile_prefix _).eq_of_length hall]
      exact List.prefix_append _ _
    · exact List.prefix_refl _
  rw [text, text, records, records, hlayout]
  exact List.IsPrefix.flatMap (List.IsPrefix.filterMap _ hconverted) _

theorem verdicts_mono {α : Type} (c : Converter α) {feed feed' : Feed α}
    (h : feed.arrivals <+: feed'.arrivals) :
    (ofFeed c feed).verdicts <+: (ofFeed c feed').verdicts :=
  List.IsPrefix.map _ h

/-- The second account is the first one with a failure of reading behind it. -/
structure Broken (fault : ReadFault) (a b : Account) : Prop where
  layout : b.layout = a.layout
  verdicts : b.verdicts = a.verdicts
  stop : b.stop = a.stop.or (some (.read fault))

theorem broken_ofFeed {α : Type} (c : Converter α) {feed feed' : Feed α} {fault : ReadFault}
    (harrivals : feed'.arrivals = feed.arrivals) (hending : feed'.ending = Cut.broken fault feed.ending) :
    Broken fault (ofFeed c feed) (ofFeed c feed') := by
  refine ⟨rfl, ?_, ?_⟩
  · rw [ofFeed, ofFeed, harrivals]
  · rw [ofFeed, ofFeed, hending]
    cases feed.ending <;> rfl

theorem Broken.text {fault : ReadFault} (h : Broken fault a b) : b.text = a.text := by
  rw [Account.text, Account.text, records, records, converted, converted, h.layout, h.verdicts]

theorem Broken.result {fault : ReadFault} (h : Broken fault a b) :
    b.result = match a.result with
      | .ok () => .error (.fault (.read fault))
      | .error halt => .error halt := by
  rw [Account.result, Account.result, h.verdicts, h.stop]
  cases a.verdicts.findSome? Verdict.halt? with
  | some halt => rfl
  | none => cases a.stop <;> rfl

end Account

namespace Settings

def dropping (s : Settings) : Settings := { s with trailing := .drop }

variable {s : Settings} {a b : BufferedSource} {w : Writer}

/-- What can be read of the lines of a source, and the failure behind them. -/
def readLines (s : Settings) (b : BufferedSource) : List Text × Option ReadFault :=
  Cut.readable (physicalLines s.encoding b.shownBytes b.shownFailure)

theorem arrivals_entries_mono (s : Settings) (p : Pattern) (lines more : List Text)
    (failure failure' : Option ReadFault) :
    (Cut.feed (s.dropping.segmentRule p) p.opens lines failure).arrivals <+:
      (Cut.feed (s.segmentRule p) p.opens (lines ++ more) failure').arrivals := by
  have hrule : s.dropping.segmentRule p = { s.segmentRule p with trailing := .drop } := rfl
  rw [hrule]
  exact Cut.arrivals_feed_mono failure failure' more

theorem verdicts_account_mono (hs : s.dialect ≠ .serviceExport) {more : List Text}
    (hmore : (s.readLines b).1 = (s.readLines a).1 ++ more) :
    (s.dropping.account a).layout = (s.account b).layout ∧
      (s.dropping.account a).verdicts <+: (s.account b).verdicts := by
  rw [readLines, readLines] at hmore
  have hdropping : s.dropping.dialect = s.dialect ∧ s.dropping.encoding = s.encoding ∧
      s.dropping.zone = s.zone ∧ s.dropping.schema = s.schema := ⟨rfl, rfl, rfl, rfl⟩
  obtain ⟨hdialect, hencoding, hzone, hschema⟩ := hdropping
  simp only [account, hdialect, hencoding, hzone, hschema, hmore, List.map_append]
  cases hdialect : s.dialect with
  | accessLog => exact ⟨rfl, Account.verdicts_mono _ (s.arrivals_entries_mono _ _ _ _ _)⟩
  | nodeLog => exact ⟨rfl, Account.verdicts_mono _ (s.arrivals_entries_mono _ _ _ _ _)⟩
  | sqlAudit => exact ⟨rfl, Account.verdicts_mono _ (Cut.arrivals_lineFeed_mono _ _ _)⟩
  | serviceAudit => exact ⟨rfl, Account.verdicts_mono _ (Cut.arrivals_lineFeed_mono _ _ _)⟩
  | serviceExport => exact absurd hdialect hs

theorem account_broken (hs : s.dialect ≠ .serviceExport) {fault : ReadFault}
    (h : s.readLines b = ((s.readLines a).1, (s.readLines a).2.or (some fault))) :
    Account.Broken fault (s.dropping.account a) (s.account b) := by
  rw [readLines, readLines] at h
  simp only [account, dropping, h]
  cases hdialect : s.dialect with
  | accessLog => exact Account.broken_ofFeed _ (Cut.feed_broken _ _).1 (Cut.feed_broken _ _).2
  | nodeLog => exact Account.broken_ofFeed _ (Cut.feed_broken _ _).1 (Cut.feed_broken _ _).2
  | sqlAudit => exact Account.broken_ofFeed _ (Cut.lineFeed_broken _ _).1 (Cut.lineFeed_broken _ _).2
  | serviceAudit =>
    exact Account.broken_ofFeed _ (Cut.lineFeed_broken _ _).1 (Cut.lineFeed_broken _ _).2
  | serviceExport => exact absurd hdialect hs

/-- The lines of a longer source begin with the lines of a source of complete lines. -/
theorem readLines_of_front (s : Settings) (hfront : a.shownBytes <+: b.shownBytes)
    (hends : EndsLine a.shownBytes) : ∃ more, (s.readLines b).1 = (s.readLines a).1 ++ more := by
  obtain ⟨rest, hrest⟩ := hfront
  have hb := physicalLines_append s.encoding hends rest b.shownFailure
  rw [hrest] at hb
  rw [readLines, readLines, hb, Cut.readable_append,
    Cut.readable_physicalLines s.encoding hends a.shownFailure]
  cases (Cut.readable (physicalLines s.encoding a.shownBytes none)).2 with
  | some fault => exact ⟨[], (List.append_nil _).symm⟩
  | none => exact ⟨_, rfl⟩

theorem readLines_of_failure (s : Settings) {reason : String}
    (hbytes : a.shownBytes = completeLines b.shownBytes) (hends : a.shownFailure = none)
    (hfails : b.shownFailure = some reason) :
    s.readLines b = ((s.readLines a).1, (s.readLines a).2.or (some (.refused reason))) := by
  obtain ⟨rest, hfree, hrest⟩ := exists_completeLines_append b.shownBytes
  have hsplit := physicalLines_append s.encoding (endsLine_completeLines b.shownBytes) rest
    (some reason)
  rw [← hrest, physicalLines_of_not_mem _ hfree] at hsplit
  rw [readLines, readLines, hbytes, hends, hfails, hsplit, Cut.readable_append]
  cases (Cut.readable (physicalLines s.encoding (completeLines b.shownBytes) none)).2 with
  | some fault => rfl
  | none => simp [Cut.readable]

theorem run_text (s : Settings) (b : BufferedSource) (h : w.sink.Unlimited) :
    (s.run b w).1 = (s.account b).result ∧
      (s.run b w).2.writer.sink.text = w.sink.text ++ (s.account b).text := by
  obtain ⟨p, hrun, hadvanced⟩ := run_advanced s b w h
  rw [hrun]
  exact ⟨rfl, hadvanced.text⟩

/-- What a run writes that drops the entry left open stands at the front of what is written once the
source has grown by whatever octets. A failing source is converted up to its last line feed, with
the open entry dropped, and then the run ends in the failure. -/
theorem run_grows (s : Settings) (w : Writer) (hs : s.dialect ≠ .serviceExport)
    (hw : w.sink.Unlimited) :
    (∀ a b : BufferedSource, a.shownBytes <+: b.shownBytes → EndsLine a.shownBytes →
      (s.dropping.run a w).2.writer.sink.text <+: (s.run b w).2.writer.sink.text) ∧
    (∀ (a b : BufferedSource) (reason : String), a.shownBytes = completeLines b.shownBytes →
      a.shownFailure = none → b.shownFailure = some reason →
      (s.run b w).2.writer.sink.text = (s.dropping.run a w).2.writer.sink.text ∧
      (s.run b w).1 = match (s.dropping.run a w).1 with
        | .ok () => .error (.fault (.read (.refused reason)))
        | .error halt => .error halt) := by
  constructor
  · intro a b hfront hends
    obtain ⟨more, hmore⟩ := s.readLines_of_front hfront hends
    obtain ⟨hlayout, hverdicts⟩ := verdicts_account_mono hs hmore
    rw [(run_text s.dropping a hw).2, (run_text s b hw).2, List.prefix_append_right_inj]
    exact Account.text_mono hlayout hverdicts
  · intro a b reason hbytes hends hfails
    have hbroken := account_broken hs (s.readLines_of_failure hbytes hends hfails)
    rw [(run_text s.dropping a hw).2, (run_text s b hw).2, (run_text s.dropping a hw).1,
      (run_text s b hw).1]
    exact ⟨by rw [hbroken.text], hbroken.result⟩

/-- Two statements and what else has been logged by then. -/
def growingLog (more : String) (failure : Option String) : BufferedSource :=
  .ofSource 64 (.ofReads [Text.toUtf8 ("[2023-02-10 00:03:15,398] I [t] L - C T=4 " ++
    "[2023-02-10 00:03:15 398] 7 a\\;\n[2023-02-10 00:03:16,000] I [t] L - C T=5 " ++
    "[2023-02-10 00:03:16 000] 8 b\\;\n" ++ more).toList] failure)

set_option maxRecDepth 16000 in
theorem run_grows_growingLog :
    let s : Settings := { dialect := .accessLog, trailing := .emit, zone := .fixed 0 }
    let w : Writer := ⟨{}, 1, 0⟩
    let first := ("\x7b\"convertSqlText\":\"a\",\"execTime\":4000,\"schema\":\"cgljfl\"," ++
      "\"session\":\"C[t]\",\"startTime\":1675987395398000,\"user\":\"\"\x7d\n").toList
    s.dialect ≠ .serviceExport ∧ w.sink.Unlimited ∧
      first <+: (s.run (growingLog "and b\nand c" none) w).2.writer.sink.text ∧
      (s.run (growingLog "and c" (some "read refused")) w).2.writer.sink.text = first ∧
      (s.run (growingLog "and c" (some "read refused")) w).1 =
        .error (.fault (.read (.refused "read refused"))) := by
  intro s w first
  have hw : w.sink.Unlimited := ⟨rfl, rfl⟩
  obtain ⟨hgrown, hfailing⟩ := run_grows s w (by decide) hw
  have htext : (s.dropping.run (growingLog "" none) w).2.writer.sink.text = first :=
    (run_text s.dropping _ hw).2.trans (by decide +kernel)
  have hresult : (s.dropping.run (growingLog "" none) w).1 = .ok () :=
    (run_text s.dropping _ hw).1.trans (by decide +kernel)
  have hfront := hgrown (growingLog "" none) (growingLog "and b\nand c" none)
    (List.isPrefixOf_iff_prefix.1 (by decide +kernel)) (by decide +kernel)
  obtain ⟨hfailingText, hfailure⟩ := hfailing (growingLog "" none)
    (growingLog "and c" (some "read refused")) "read refused" (by decide +kernel) rfl rfl
  rw [htext] at hfront hfailingText
  rw [hresult] at hfailure
  exact ⟨by decide, hw, hfront, hfailingText, hfailure⟩

end Settings
end ReplayLog
