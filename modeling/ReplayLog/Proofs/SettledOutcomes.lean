import ReplayLog.Proofs.RunAccount
import ReplayLog.Proofs.WholeEntries

/-! # Settled outcomes

A source whose entries all have outcomes is converted to its end: the records are written and the
rejections counted. -/
namespace ReplayLog

/-- Nothing is against a statement that is not blank and that every rule lets pass. -/
theorem firstRejection_none_iff {rules : List RejectionRule} {statement : Text}
    {parameter : Option Text} : firstRejection rules statement parameter = none ↔
      statement.isBlankText = false ∧ ∀ rule ∈ rules, rule.check statement parameter = none := by
  rw [firstRejection]
  split
  · next hblank => simp [hblank]
  · next hblank => rw [List.findSome?_eq_none_iff, and_iff_right (by simpa using hblank)]

structure Settles {α : Type} (outcome : α → Outcome) (kept : α → Prop) (record : α → Record)
    (as : List α) : Prop where
  emit : ∀ a ∈ as, kept a → outcome a = .emit (record a)
  ignore : ∀ a ∈ as, ¬kept a → ∃ reason, outcome a = .ignore reason

namespace Settles

variable {α : Type} {outcome : α → Outcome} {kept : α → Prop} {record : α → Record}

theorem tail {a : α} {as : List α} (h : Settles outcome kept record (a :: as)) :
    Settles outcome kept record as :=
  ⟨fun b hb => h.emit b (List.mem_cons_of_mem _ hb), fun b hb => h.ignore b (List.mem_cons_of_mem _ hb)⟩

theorem of_reason {reason : α → Option Rejection} {as : List α}
    (houtcome : ∀ a, outcome a = match reason a with
      | some r => .ignore r
      | none => .emit (record a))
    (hkept : ∀ a ∈ as, reason a = none ↔ kept a) : Settles outcome kept record as where
  emit a ha h := by
    rw [houtcome, (hkept a ha).2 h]
  ignore a ha h := by
    obtain ⟨r, hr⟩ := Option.ne_none_iff_exists'.1 (mt (hkept a ha).1 h)
    exact ⟨r, by rw [houtcome, hr]⟩

variable [DecidablePred kept]

theorem filterMap_record? {as : List α} (h : Settles outcome kept record as) :
    (as.map outcome).filterMap Outcome.record? = (as.filter fun a => kept a).map record := by
  induction as with
  | nil => rfl
  | cons a as ih =>
    rw [List.map_cons, List.filterMap_cons, ih h.tail]
    by_cases ha : kept a
    · rw [h.emit a List.mem_cons_self ha, List.filter_cons_of_pos (by simpa using ha)]
      rfl
    · obtain ⟨reason, hreason⟩ := h.ignore a List.mem_cons_self ha
      rw [hreason, List.filter_cons_of_neg (by simpa using ha)]
      rfl

theorem length_filterMap_rejection? {as : List α} (h : Settles outcome kept record as) :
    ((as.map outcome).filterMap Outcome.rejection?).length =
      (as.filter fun a => ¬kept a).length := by
  induction as with
  | nil => rfl
  | cons a as ih =>
    rw [List.map_cons, List.filterMap_cons]
    by_cases ha : kept a
    · rw [h.emit a List.mem_cons_self ha, List.filter_cons_of_neg (by simpa using ha)]
      exact ih h.tail
    · obtain ⟨reason, hreason⟩ := h.ignore a List.mem_cons_self ha
      rw [hreason, List.filter_cons_of_pos (by simpa using ha)]
      exact congrArg Nat.succ (ih h.tail)

end Settles

namespace Progress

/-- A run over entries that all have outcomes settles these outcomes. -/
theorem takeFeed_outcomes {α : Type} (c : Converter α) {feed : Feed α} {preamble : Nat}
    {dropped : Option Entry} (hending : feed.ending = .finished preamble dropped)
    {outcomes : List Outcome}
    (houtcomes : (feed.arrivals.map Arrival.entry).map c.convert = outcomes.map .ok) (p : Progress)
    (hp : p.writer.sink.Unlimited) :
    ∃ p', close (p.takeFeed c feed) = (.ok (), p') ∧
      p'.writer.sink.text = p.writer.sink.text ++
        (outcomes.filterMap Outcome.record?).flatMap (fun r => c.layout.line r ++ ['\n']) ∧
      p'.tally.written = p.tally.written + (outcomes.filterMap Outcome.record?).length ∧
      p'.tally.ignored = p.tally.ignored + (outcomes.filterMap Outcome.rejection?).length ∧
      p'.tally.seen = p.tally.seen + (outcomes.filterMap Outcome.record?).length +
        (outcomes.filterMap Outcome.rejection?).length := by
  obtain ⟨p', hclose, hadvanced⟩ := takeFeed_account c p hp feed
  have hverdicts : (Account.ofFeed c feed).verdicts.map Verdict.outcome = outcomes.map .ok := by
    rw [← houtcomes, Account.ofFeed, List.map_map, List.map_map]
    rfl
  have hstop : (Account.ofFeed c feed).stop = none := by
    rw [Account.ofFeed, hending]
  obtain ⟨hresult, hrecords, hrejections⟩ := Account.of_outcomes hverdicts hstop
  rw [hresult] at hclose
  rw [Account.records] at hrecords
  rw [Account.rejections] at hrejections
  refine ⟨p', hclose, ?_, ?_, ?_, ?_⟩
  · rw [hadvanced.text, hrecords]
  · rw [hadvanced.written, hrecords]
  · rw [hadvanced.ignored, hrejections]
  · rw [hadvanced.seen, hrecords, hrejections]

theorem takeFeed_settled {α β : Type} (c : Converter α) {feed : Feed α} {preamble : Nat}
    {dropped : Option Entry} (hending : feed.ending = .finished preamble dropped)
    {outcome : β → Outcome} {kept : β → Prop} [DecidablePred kept] {record : β → Record}
    {bs : List β} (h : Settles outcome kept record bs)
    (hconvert : (feed.arrivals.map Arrival.entry).map c.convert = bs.map fun b => .ok (outcome b))
    (p : Progress) (hp : p.writer.sink.Unlimited) :
    ∃ p', close (p.takeFeed c feed) = (.ok (), p') ∧
      p'.writer.sink.text = p.writer.sink.text ++
        (bs.filter fun b => kept b).flatMap (fun b => c.layout.line (record b) ++ ['\n']) ∧
      p'.tally.written = p.tally.written + (bs.filter fun b => kept b).length ∧
      p'.tally.ignored = p.tally.ignored + (bs.filter fun b => ¬kept b).length ∧
      p'.tally.seen = p.tally.seen + bs.length := by
  have houtcomes : (feed.arrivals.map Arrival.entry).map c.convert = (bs.map outcome).map .ok := by
    rw [hconvert, List.map_map]
    rfl
  obtain ⟨p', hclose, htext, hwritten, hignored, hseen⟩ :=
    takeFeed_outcomes c hending houtcomes p hp
  rw [h.filterMap_record?, List.length_map] at hwritten hseen
  rw [h.length_filterMap_rejection?] at hignored hseen
  rw [h.filterMap_record?, List.flatMap_map] at htext
  refine ⟨p', hclose, htext, hwritten, hignored, ?_⟩
  have hall := List.length_eq_length_filter_add (l := bs) fun b => decide (kept b)
  rw [hseen, hall, Nat.add_assoc]
  simp

theorem takeFeed_wholes (c : Converter Text) {rule : SegmentRule} {opens : Text → Bool}
    (hrule : rule.boundary = .marked opens) (htrailing : rule.trailing = .emit) {ts : List Text}
    (hts : ∀ t ∈ ts, Whole rule opens t) {outcomes : List Outcome}
    (houtcomes : ts.map c.convert = outcomes.map .ok) (p : Progress)
    (hp : p.writer.sink.Unlimited) :
    ∃ p', close (p.takeFeed c (Feed.ofEntries rule ((ts.flatMap Text.lines).map .ok))) =
        (.ok (), p') ∧
      p'.writer.sink.text = p.writer.sink.text ++
        (outcomes.filterMap Outcome.record?).flatMap (fun r => c.layout.line r ++ ['\n']) ∧
      p'.tally.written = p.tally.written + (outcomes.filterMap Outcome.record?).length ∧
      p'.tally.ignored = p.tally.ignored + (outcomes.filterMap Outcome.rejection?).length ∧
      p'.tally.seen = p.tally.seen + (outcomes.filterMap Outcome.record?).length +
        (outcomes.filterMap Outcome.rejection?).length := by
  obtain ⟨harrivals, hending⟩ := Feed.ofEntries_wholes hrule htrailing hts
  rw [← harrivals] at houtcomes
  exact takeFeed_outcomes c hending houtcomes p hp

end Progress
end ReplayLog
