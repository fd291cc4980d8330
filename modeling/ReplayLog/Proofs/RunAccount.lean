import ReplayLog.Conversion.Run
import ReplayLog.Proofs.LineCut
import ReplayLog.Proofs.PhysicalLines

/-! # The account of a run

A run over a sink that never refuses is described from its source alone: the complete entries with
what their conversions give, and the failure behind them. The sink then holds the lines of the
records before the first failure, in order, and the result of the run is that failure. -/
namespace ReplayLog

/-- A sink that accepts every line and every flush. -/
structure Sink.Unlimited (s : Sink) : Prop where
  capacity : s.capacity = none
  refusedFlush : s.refusedFlush = none

/-- A complete entry: the line it starts on, its text in diagnostics and what its conversion gives. -/
structure Verdict where
  line : Nat
  shown : Text
  outcome : Extract Outcome

namespace Verdict

def halt? (v : Verdict) : Option (Halt RunFault) :=
  match v.outcome with
  | .ok _ => none
  | .error (.fault f) => some (.fault (.malformed v.line v.shown f))
  | .error (.overflow o) => some (.overflow o)

def record? (v : Verdict) : Option Record :=
  match v.outcome with
  | .ok (.emit r) => some r
  | _ => none

def rejection? (v : Verdict) : Option Rejection :=
  match v.outcome with
  | .ok (.ignore reason) => some reason
  | _ => none

end Verdict

/-- The complete entries of a source, and the failure of reading or of size behind them. -/
structure Account where
  layout : Layout
  verdicts : List Verdict
  stop : Option RunFault

namespace Account

def ofFeed {α : Type} (c : Converter α) (feed : Feed α) : Account where
  layout := c.layout
  verdicts := feed.arrivals.map fun a => ⟨a.startLine, c.render a.entry, c.convert a.entry⟩
  stop := match feed.ending with
    | .failed fault => some fault
    | .finished _ _ => none

/-- The entries before the first one that stops the run. -/
def converted (a : Account) : List Verdict := a.verdicts.takeWhile (·.halt?.isNone)

def records (a : Account) : List Record := a.converted.filterMap Verdict.record?

def rejections (a : Account) : List Rejection := a.converted.filterMap Verdict.rejection?

def text (a : Account) : Text := a.records.flatMap fun r => a.layout.line r ++ ['\n']

/-- The first failure: that of an entry, or else the one behind the entries. -/
def result (a : Account) : Progress.Result :=
  match (a.verdicts.findSome? Verdict.halt?).or (a.stop.map .fault) with
  | some halt => .error halt
  | none => .ok ()

/-- The record of an account is what one of its entries is converted to. -/
theorem exists_of_mem_records {a : Account} {r : Record} (h : r ∈ a.records) :
    ∃ v ∈ a.verdicts, v.outcome = .ok (.emit r) := by
  obtain ⟨v, hv, hrecord⟩ := List.mem_filterMap.1 h
  refine ⟨v, (List.takeWhile_prefix _).subset hv, ?_⟩
  rw [Verdict.record?] at hrecord
  split at hrecord
  · next r' houtcome =>
    cases hrecord
    exact houtcome
  · cases hrecord

theorem result_eq_ok_iff {a : Account} :
    a.result = .ok () ↔ (∀ v ∈ a.verdicts, v.halt? = none) ∧ a.stop = none := by
  rw [result]
  cases hfirst : a.verdicts.findSome? Verdict.halt? with
  | some halt =>
    have hno : ¬ ∀ v ∈ a.verdicts, v.halt? = none := by
      intro hall
      rw [List.findSome?_eq_none_iff.2 hall] at hfirst
      cases hfirst
    simp [hno]
  | none =>
    have hall := List.findSome?_eq_none_iff.1 hfirst
    cases a.stop with
    | some fault => simp
    | none => simp only [Option.map_none, Option.or_self, and_true, true_iff]; exact hall

theorem result_of_split {a : Account} {before after : List Verdict} {v : Verdict}
    {halt : Halt RunFault} (hsplit : a.verdicts = before ++ v :: after)
    (hbefore : ∀ u ∈ before, u.halt? = none) (hv : v.halt? = some halt) :
    a.result = .error halt := by
  have hnone := List.findSome?_eq_none_iff.2 hbefore
  simp [result, hsplit, List.findSome?_append, hnone, hv]

end Account

def Outcome.record? : Outcome → Option Record
  | .emit r => some r
  | _ => none

def Outcome.rejection? : Outcome → Option Rejection
  | .ignore reason => some reason
  | _ => none

theorem Verdict.filterMap_of_outcomes {β : Type} {vs : List Verdict} {outcomes : List Outcome}
    (h : vs.map outcome = outcomes.map .ok) {f : Verdict → Option β} {g : Outcome → Option β}
    (hfg : ∀ v o, v.outcome = .ok o → f v = g o) : vs.filterMap f = outcomes.filterMap g := by
  induction vs generalizing outcomes with
  | nil =>
    cases outcomes with
    | nil => rfl
    | cons o outcomes => cases h
  | cons v vs ih =>
    cases outcomes with
    | nil => cases h
    | cons o outcomes =>
      obtain ⟨ho, hrest⟩ := List.cons.inj h
      rw [List.filterMap_cons, List.filterMap_cons, hfg v o ho, ih hrest]

/-- Where every entry has an outcome and nothing fails behind them, all of them are settled. -/
theorem Account.of_outcomes {a : Account} {outcomes : List Outcome}
    (h : a.verdicts.map Verdict.outcome = outcomes.map .ok) (hstop : a.stop = none) :
    a.result = .ok () ∧ a.records = outcomes.filterMap Outcome.record? ∧
      a.rejections = outcomes.filterMap Outcome.rejection? := by
  have hhalt : ∀ v ∈ a.verdicts, v.halt? = none := by
    intro v hv
    have hmem : v.outcome ∈ outcomes.map Except.ok := h ▸ List.mem_map_of_mem hv
    obtain ⟨o, -, ho⟩ := List.mem_map.1 hmem
    rw [Verdict.halt?, ← ho]
  have hconverted : a.converted = a.verdicts := by
    rw [converted, List.takeWhile_eq_self_iff]
    intro v hv
    rw [hhalt v hv]
    rfl
  refine ⟨result_eq_ok_iff.2 ⟨hhalt, hstop⟩, ?_, ?_⟩
  · rw [records, hconverted]
    apply Verdict.filterMap_of_outcomes h
    intro v o ho
    cases o <;> rw [Verdict.record?, ho] <;> rfl
  · rw [rejections, hconverted]
    apply Verdict.filterMap_of_outcomes h
    intro v o ho
    cases o <;> rw [Verdict.rejection?, ho] <;> rfl

def Settings.account (s : Settings) (b : BufferedSource) : Account :=
  let lines := Cut.readable (physicalLines s.encoding b.shownBytes b.shownFailure)
  let trimmed := lines.1.map Text.trim
  let entries (layout : Layout) (boundary : Pattern) (convert : Text → Extract Outcome) :=
    Account.ofFeed (.ofEntries layout convert)
      (Cut.feed (s.segmentRule boundary) boundary.opens trimmed lines.2)
  let events (layout : Layout) (convert : Json → Extract Outcome) :=
    Account.ofFeed (.ofEvents layout convert) (Cut.lineFeed trimmed lines.2)
  match s.dialect with
  | .accessLog => entries AccessLog.layout AccessLog.boundary (AccessLog.convert s.zone s.schema)
  | .nodeLog => entries NodeLog.layout NodeLog.boundary (NodeLog.convert s.zone)
  | .sqlAudit => events SqlAudit.layout (SqlAudit.convert s.zone)
  | .serviceAudit => events ServiceAudit.layout ServiceAudit.convert
  | .serviceExport =>
    .ofFeed (.ofRows ServiceAudit.layout (ServiceExport.convert s.zone))
      (Cut.rowFeed ((Table.ofSource s.encoding b).map Table.items))

theorem Sink.Unlimited.store {s : Sink} (h : s.Unlimited) (line : Text) :
    ∃ s' : Sink, s.store line = (.ok (), s') ∧ s'.Unlimited ∧
      s'.text = s.text ++ (line ++ ['\n']) := by
  obtain ⟨lines, flushes, capacity, refusedFlush⟩ := s
  obtain ⟨hc, hf⟩ := h
  simp only at hc hf
  subst hc hf
  exact ⟨_, rfl, ⟨rfl, rfl⟩, by simp [text]⟩

theorem Writer.flush_unlimited {w : Writer} (h : w.sink.Unlimited) :
    ∃ w' : Writer, w.flush = (.ok (), w') ∧ w'.sink.Unlimited ∧ w'.sink.text = w.sink.text := by
  refine ⟨w.flush.2, ?_, ⟨h.capacity, h.refusedFlush⟩, Sink.text_flush w.sink⟩
  simp [flush, Sink.flush, h.refusedFlush]

/-- A record written to a sink that never refuses is at the end of its text. -/
theorem Writer.write_unlimited {w : Writer} (h : w.sink.Unlimited) (l : Layout) (r : Record) :
    ∃ w' : Writer, w.write l r = (.ok (), w') ∧ w'.sink.Unlimited ∧
      w'.sink.text = w.sink.text ++ (l.line r ++ ['\n']) := by
  obtain ⟨sink, interval, written⟩ := w
  obtain ⟨sink', hstore, hunlimited, htext⟩ := h.store (l.line r)
  simp only [write, hstore]
  split
  · have hw : (⟨sink', interval, written + 1⟩ : Writer).sink.Unlimited := hunlimited
    obtain ⟨w', hflush, hflushed, hsame⟩ := flush_unlimited hw
    exact ⟨w', hflush, hflushed, hsame.trans htext⟩
  · exact ⟨_, rfl, hunlimited, htext⟩

namespace Progress

/-- The second state is the first one with some entries settled in between. -/
structure Advanced (l : Layout) (settled : List Verdict) (p p' : Progress) : Prop where
  unlimited : p'.writer.sink.Unlimited
  text : p'.writer.sink.text = p.writer.sink.text ++
    (settled.filterMap Verdict.record?).flatMap fun r => l.line r ++ ['\n']
  written : p'.tally.written = p.tally.written + (settled.filterMap Verdict.record?).length
  ignored : p'.tally.ignored = p.tally.ignored + (settled.filterMap Verdict.rejection?).length
  seen : p'.tally.seen = p.tally.seen + (settled.filterMap Verdict.record?).length +
    (settled.filterMap Verdict.rejection?).length

variable {l : Layout} {p p' p'' : Progress}

theorem Advanced.refl (h : p.writer.sink.Unlimited) : Advanced l [] p p :=
  ⟨h, by simp, rfl, rfl, rfl⟩

theorem Advanced.trans {vs vs' : List Verdict} (h : Advanced l vs p p')
    (h' : Advanced l vs' p' p'') : Advanced l (vs ++ vs') p p'' := by
  refine ⟨h'.unlimited, ?_, ?_, ?_, ?_⟩
  · rw [h'.text, h.text, List.filterMap_append, List.flatMap_append, List.append_assoc]
  · rw [h'.written, h.written, List.filterMap_append, List.length_append, Nat.add_assoc]
  · rw [h'.ignored, h.ignored, List.filterMap_append, List.length_append, Nat.add_assoc]
  · rw [h'.seen, h.seen, List.filterMap_append, List.filterMap_append, List.length_append,
      List.length_append]
    omega

/-- One arrival either is settled or stops the run where it stands. -/
theorem take_advanced {α : Type} (c : Converter α) (p : Progress)
    (h : p.writer.sink.Unlimited) (a : Arrival α) :
    let v : Verdict := ⟨a.startLine, c.render a.entry, c.convert a.entry⟩
    match v.halt? with
    | some halt => ∃ p', p.take c a = (.error halt, p') ∧ Advanced c.layout [] p p'
    | none => ∃ p', p.take c a = (.ok (), p') ∧ Advanced c.layout [v] p p' := by
  intro v
  cases hc : c.convert a.entry with
  | error halt =>
    cases halt <;> simp only [v, Verdict.halt?, take, hc] <;>
      exact ⟨_, rfl, h, by simp [atLine], rfl, rfl, rfl⟩
  | ok outcome =>
    cases outcome with
    | empty =>
      simp only [v, Verdict.halt?, take, hc]
      exact ⟨_, rfl, h, by simp [Verdict.record?], rfl, rfl, rfl⟩
    | ignore reason =>
      simp only [v, Verdict.halt?, take, hc]
      exact ⟨_, rfl, h, by simp [Verdict.record?], rfl, rfl, rfl⟩
    | emit r =>
      obtain ⟨tally, writer, remarks⟩ := p
      obtain ⟨writer', hwrite, hunlimited, htext⟩ := Writer.write_unlimited h c.layout r
      simp only [v, Verdict.halt?, take, hc, atLine, settle, hwrite]
      exact ⟨_, rfl, hunlimited, by simpa [Verdict.record?] using htext, rfl, rfl, rfl⟩

/-- All arrivals are settled up to the first that stops the run. -/
theorem takeAll_advanced {α : Type} (c : Converter α) (p : Progress)
    (h : p.writer.sink.Unlimited) (arrivals : List (Arrival α)) :
    let vs : List Verdict :=
      arrivals.map fun a => ⟨a.startLine, c.render a.entry, c.convert a.entry⟩
    ∃ p', p.takeAll c arrivals = (match vs.findSome? Verdict.halt? with
        | some halt => .error halt
        | none => .ok (), p') ∧
      Advanced c.layout (vs.takeWhile (·.halt?.isNone)) p p' := by
  induction arrivals generalizing p with
  | nil => exact ⟨p, rfl, .refl h⟩
  | cons a arrivals ih =>
    have hstep := take_advanced c p h a
    simp only [List.map_cons, List.findSome?_cons, List.takeWhile_cons, takeAll]
    generalize Verdict.mk a.startLine (c.render a.entry) (c.convert a.entry) = v at hstep ⊢
    cases hv : v.halt? with
    | some halt =>
      simp only [hv] at hstep
      obtain ⟨p', htake, hadvanced⟩ := hstep
      exact ⟨p', by rw [htake], hadvanced⟩
    | none =>
      simp only [hv] at hstep
      obtain ⟨p', htake, hadvanced⟩ := hstep
      obtain ⟨p'', hall, hrest⟩ := ih p' hadvanced.unlimited
      exact ⟨p'', by rw [htake]; exact hall, hadvanced.trans hrest⟩

theorem finish_advanced (h : p.writer.sink.Unlimited) (linesRead : Nat) (ending : Ending) :
    ∃ p', p.finish linesRead ending = (match ending with
        | .failed fault => .error (.fault fault)
        | .finished _ _ => .ok (), p') ∧ Advanced l [] p p' := by
  cases ending with
  | failed fault => exact ⟨_, rfl, h, by simp [atLine], rfl, rfl, rfl⟩
  | finished preamble dropped => exact ⟨_, rfl, h, by simp [atLine], rfl, rfl, rfl⟩

/-- The flush at the end changes neither the result nor what is written. -/
theorem close_advanced (r : Result) (h : p.writer.sink.Unlimited) :
    ∃ p', close (r, p) = (r, p') ∧ Advanced l [] p p' := by
  obtain ⟨w, hflush, hunlimited, htext⟩ := Writer.flush_unlimited h
  have hflushed : Advanced l [] p { p with writer := w } :=
    ⟨hunlimited, by simpa using htext, rfl, rfl, rfl⟩
  rcases r with (f | o) | _
  · exact ⟨_, by simp only [close, hflush], hflushed⟩
  · exact ⟨p, rfl, .refl h⟩
  · exact ⟨_, by simp only [close, hflush], hflushed⟩

/-- Taking a feed over a sink that never refuses gives what the account of the feed says. -/
theorem takeFeed_account {α : Type} (c : Converter α) (p : Progress)
    (h : p.writer.sink.Unlimited) (feed : Feed α) :
    ∃ p', close (p.takeFeed c feed) = ((Account.ofFeed c feed).result, p') ∧
      Advanced c.layout (Account.ofFeed c feed).converted p p' := by
  obtain ⟨p₁, hall, hadvanced⟩ := takeAll_advanced c p h feed.arrivals
  rw [takeFeed, Account.result, Account.converted, Account.ofFeed, hall]
  dsimp only
  cases hfirst : List.findSome? Verdict.halt?
      (feed.arrivals.map fun a => ⟨a.startLine, c.render a.entry, c.convert a.entry⟩) with
  | some halt =>
    obtain ⟨p₂, hclose, hclosed⟩ := close_advanced (.error halt) hadvanced.unlimited
    exact ⟨p₂, hclose, by simpa using hadvanced.trans hclosed⟩
  | none =>
    obtain ⟨p₂, hfinish, hfinished⟩ :=
      finish_advanced hadvanced.unlimited feed.linesRead feed.ending
    obtain ⟨p₃, hclose, hclosed⟩ := close_advanced _ hfinished.unlimited
    refine ⟨p₃, ?_, by simpa using (hadvanced.trans hfinished).trans hclosed⟩
    dsimp only
    rw [hfinish, hclose]
    cases feed.ending <;> rfl

end Progress

namespace Settings

/-- A run takes one feed of its source, and the account of the source is the account of this feed. -/
theorem exists_feed (s : Settings) (b : BufferedSource) :
    ∃ (α : Type) (c : Converter α) (feed : Feed α),
      (∀ p : Progress, s.takeSource b p = p.takeFeed c feed) ∧
      s.account b = Account.ofFeed c feed ∧ c.layout = s.dialect.layout := by
  simp only [takeSource, account, lines_eq_physicalLines]
  cases s.dialect with
  | accessLog =>
    dsimp only
    exact ⟨_, _, _, fun p => by rw [Cut.ofEntries_eq_feed rfl], rfl, rfl⟩
  | nodeLog =>
    dsimp only
    exact ⟨_, _, _, fun p => by rw [Cut.ofEntries_eq_feed rfl], rfl, rfl⟩
  | sqlAudit =>
    dsimp only
    exact ⟨_, _, _, fun p => by rw [Cut.ofLines_eq_lineFeed], rfl, rfl⟩
  | serviceAudit =>
    dsimp only
    exact ⟨_, _, _, fun p => by rw [Cut.ofLines_eq_lineFeed], rfl, rfl⟩
  | serviceExport =>
    dsimp only
    exact ⟨_, _, _, fun p => by rw [Cut.ofTable_eq_rowFeed], rfl, rfl⟩

/-- Reading line by line and converting entry by entry amounts to the account of the source. -/
theorem run_advanced (s : Settings) (b : BufferedSource) (w : Writer) (h : w.sink.Unlimited) :
    ∃ p, s.run b w = ((s.account b).result, p) ∧
      Progress.Advanced (s.account b).layout (s.account b).converted ⟨{}, w, #[]⟩ p := by
  obtain ⟨α, c, feed, htake, haccount, -⟩ := s.exists_feed b
  rw [run, htake, haccount]
  exact Progress.takeFeed_account c _ h feed

/-- A run over a sink that never refuses writes the lines of the records before the first failure of
its source, and ends in that failure. -/
theorem run_writes_account (s : Settings) (b : BufferedSource) (w : Writer)
    (h : w.sink.Unlimited) :
    (s.run b w).2.writer.sink.text = w.sink.text ++ (s.account b).text ∧
    (s.run b w).1 = (s.account b).result ∧
    ((s.run b w).1 = .ok () ↔
      (∀ v ∈ (s.account b).verdicts, v.halt? = none) ∧ (s.account b).stop = none) ∧
    (∀ before v after f, (s.account b).verdicts = before ++ v :: after →
      (∀ u ∈ before, u.halt? = none) → v.outcome = .error (.fault f) →
        (s.run b w).1 = .error (.fault (.malformed v.line v.shown f))) ∧
    (s.run b w).2.tally.written = (s.account b).records.length ∧
    (s.run b w).2.tally.ignored = (s.account b).rejections.length ∧
    (s.run b w).2.tally.seen = (s.account b).records.length + (s.account b).rejections.length := by
  obtain ⟨p, hrun, hadvanced⟩ := run_advanced s b w h
  rw [hrun]
  refine ⟨hadvanced.text, rfl, Account.result_eq_ok_iff, ?_, ?_, ?_, ?_⟩
  · intro before v after f hsplit hbefore hv
    rw [Account.result_of_split hsplit hbefore (by rw [Verdict.halt?, hv])]
  · exact hadvanced.written.trans (Nat.zero_add _)
  · exact hadvanced.ignored.trans (Nat.zero_add _)
  · have hseen := hadvanced.seen
    rw [Nat.zero_add] at hseen
    exact hseen

/-- A line of preamble, an entry and another one that a second line carries over a limit. -/
def overgrownLog : BufferedSource :=
  .ofSource 7 (.ofReads [Text.toUtf8 ("x\n[2023-02-10 00:03:15,398] I [t] L - C T=4 " ++
    "[2023-02-10 00:03:15 398] 7 a\\;\n[2023-02-10 00:03:16,000] y\nb").toList] none)

set_option maxRecDepth 16000 in
theorem run_writes_account_overgrownLog :
    (⟨⟨#[], 0, none, none⟩, 1, 0⟩ : Writer).sink.Unlimited ∧
    (run { dialect := .accessLog, zone := .fixed 0, maxEntryLines := 1 } overgrownLog
      ⟨⟨#[], 0, none, none⟩, 1, 0⟩).2.writer.sink.text =
        ("\x7b\"convertSqlText\":\"a\",\"execTime\":4000,\"schema\":\"cgljfl\"," ++
          "\"session\":\"C[t]\",\"startTime\":1675987395398000,\"user\":\"\"\x7d\n").toList ∧
    (run { dialect := .accessLog, zone := .fixed 0, maxEntryLines := 1 } overgrownLog
      ⟨⟨#[], 0, none, none⟩, 1, 0⟩).1 = .error (.fault (.tooLarge 3 (.lines 1))) := by
  have h := run_writes_account { dialect := .accessLog, zone := .fixed 0, maxEntryLines := 1 }
    overgrownLog ⟨⟨#[], 0, none, none⟩, 1, 0⟩ ⟨rfl, rfl⟩
  exact ⟨⟨rfl, rfl⟩, h.1.trans (by decide +kernel), h.2.1.trans (by decide +kernel)⟩

end Settings
end ReplayLog
