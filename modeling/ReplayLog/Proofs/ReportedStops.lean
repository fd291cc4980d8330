import ReplayLog.Proofs.StoredRecords

/-! # What a run reports

A run takes its entries up to the first record that its sink refuses or the first failure of its
source, whichever comes first, and then flushes the sink. If that flush is accepted, the run reports
what stopped it, with the line and the text of a malformed entry. If it is refused, the run reports
the refusal, and what stopped it is lost. -/
namespace ReplayLog

namespace Writer

/-- Writes records in their order up to the first that is refused. -/
def writeAll (l : Layout) : Writer → List Record → Except SinkFault Unit × Writer
  | w, [] => (.ok (), w)
  | w, r :: rs =>
    match w.write l r with
    | (.ok (), w) => writeAll l w rs
    | (.error fault, w) => (.error fault, w)

variable {l : Layout} {w w' : Writer} {fault : SinkFault} {rs : List Record}

/-- Records behind those written are written on. -/
theorem writeAll_append_of_ok (h : w.writeAll l rs = (.ok (), w')) (more : List Record) :
    w.writeAll l (rs ++ more) = w'.writeAll l more := by
  induction rs generalizing w with
  | nil =>
    cases h
    rfl
  | cons r rs ih =>
    rw [writeAll] at h
    rw [List.cons_append, writeAll]
    generalize w.write l r = step at h ⊢
    obtain ⟨refusal | _, v⟩ := step
    · cases h
    · exact ih h

/-- Records behind a refused one are not written. -/
theorem writeAll_append_of_error (h : w.writeAll l rs = (.error fault, w')) (more : List Record) :
    w.writeAll l (rs ++ more) = (.error fault, w') := by
  induction rs generalizing w with
  | nil => cases h
  | cons r rs ih =>
    rw [writeAll] at h
    rw [List.cons_append, writeAll]
    generalize w.write l r = step at h ⊢
    obtain ⟨refusal | _, v⟩ := step
    · exact h
    · exact ih h

theorem refusedFlush_write (w : Writer) (l : Layout) (r : Record) :
    (w.write l r).2.sink.refusedFlush = w.sink.refusedFlush := by
  obtain ⟨⟨lines, flushes, capacity, refusedFlush⟩, interval, written⟩ := w
  by_cases hfull : capacity.any (· ≤ lines.size) = true
  · simp [write, Sink.store, hfull]
  · simp only [write, Sink.store, hfull, Bool.false_eq_true, if_false]
    split <;> rfl

/-- Writing does not change which flushes the sink refuses. -/
theorem refusedFlush_writeAll (w : Writer) (l : Layout) (rs : List Record) :
    (w.writeAll l rs).2.sink.refusedFlush = w.sink.refusedFlush := by
  induction rs generalizing w with
  | nil => rfl
  | cons r rs ih =>
    have hstep := refusedFlush_write w l r
    rw [writeAll]
    generalize w.write l r = step at hstep ⊢
    obtain ⟨refusal | _, v⟩ := step
    · exact hstep
    · exact (ih v).trans hstep

end Writer

namespace Progress

def resultOf : Option (Halt RunFault) → Result
  | some halt => .error halt
  | none => .ok ()

/-- A result with the writer behind the records before it; a refused record comes before it. -/
def behind (r : Result) : Except SinkFault Unit × Writer → Result × Writer
  | (.ok (), w) => (r, w)
  | (.error fault, w) => (refusedBy fault, w)

variable {α : Type}

theorem settle_behind (p : Progress) (l : Layout) (v : Verdict) {o : Outcome}
    (h : v.outcome = .ok o) :
    ((p.settle l o).1, (p.settle l o).2.writer) =
      behind (.ok ()) (p.writer.writeAll l v.record?.toList) := by
  obtain ⟨tally, writer, remarks⟩ := p
  cases o with
  | empty => simp [Verdict.record?, h, Writer.writeAll, settle, behind]
  | ignore reason => simp [Verdict.record?, h, Writer.writeAll, settle, behind]
  | emit r =>
    simp only [Verdict.record?, h, Option.toList_some, Writer.writeAll, settle]
    rcases writer.write l r with ⟨fault | _, w⟩ <;> rfl

/-- One arrival is settled, or halts the run before anything is written. -/
theorem take_behind (c : Converter α) (p : Progress) (a : Arrival α) :
    let v : Verdict := ⟨a.startLine, c.render a.entry, c.convert a.entry⟩
    ((p.take c a).1, (p.take c a).2.writer) =
      behind (resultOf v.halt?) (p.writer.writeAll c.layout v.record?.toList) := by
  intro v
  cases hc : c.convert a.entry with
  | ok o =>
    have hv : v.outcome = .ok o := hc
    have hhalt : v.halt? = none := by rw [Verdict.halt?, hv]
    rw [hhalt, take, hc]
    exact settle_behind (p.atLine a.linesRead) c.layout v hv
  | error halt =>
    cases halt <;>
      simp [v, take, hc, Verdict.halt?, Verdict.record?, resultOf, Writer.writeAll, behind, atLine]

/-- All arrivals are settled up to the first that is refused or halts the run. -/
theorem takeAll_behind (c : Converter α) (p : Progress) (as : List (Arrival α)) :
    let vs : List Verdict := as.map fun a => ⟨a.startLine, c.render a.entry, c.convert a.entry⟩
    ((p.takeAll c as).1, (p.takeAll c as).2.writer) =
      behind (resultOf (vs.findSome? Verdict.halt?))
        (p.writer.writeAll c.layout (settledRecords vs)) := by
  induction as generalizing p with
  | nil => rfl
  | cons a as ih =>
    have hstep := take_behind c p a
    rw [List.map_cons, takeAll]
    generalize Verdict.mk a.startLine (c.render a.entry) (c.convert a.entry) = v at hstep ⊢
    dsimp only at hstep ⊢
    cases hhalt : v.halt? with
    | some halt =>
      have hnone : settledRecords [v] = [] := by simp [settledRecords, hhalt]
      have hrecord : v.record?.toList = [] := by
        simpa [hnone] using record?_prefix_settledRecords v []
      have hrecords (vs : List Verdict) : settledRecords (v :: vs) = [] := by
        simp [settledRecords, hhalt]
      rw [hhalt, hrecord] at hstep
      rw [List.findSome?_cons, hhalt, hrecords]
      rcases htake : p.take c a with ⟨stop | _, q⟩ <;> rw [htake] at hstep
      · exact hstep
      · cases hstep
    | none =>
      rw [hhalt] at hstep
      rw [List.findSome?_cons, hhalt, settledRecords_cons hhalt]
      rcases hwrite : p.writer.writeAll c.layout v.record?.toList with ⟨fault | _, w⟩ <;>
        rw [hwrite] at hstep
      · rw [Writer.writeAll_append_of_error hwrite]
        rcases htake : p.take c a with ⟨stop | _, q⟩ <;> rw [htake] at hstep
        · exact hstep
        · cases hstep
      · rw [Writer.writeAll_append_of_ok hwrite]
        rcases htake : p.take c a with ⟨stop | _, q⟩ <;> rw [htake] at hstep
        · cases hstep
        · cases hstep
          exact ih q

end Progress

/-- What stops the entries of an account from being taken on, and the writer as it is then: the
first record that is refused or, behind the records, the first failure of the source. -/
def Account.stopping (a : Account) (w : Writer) : Progress.Result × Writer :=
  Progress.behind a.result (w.writeAll a.layout a.records)

namespace Progress

variable {α : Type}

/-- A feed is taken until something stops it, before the flush at the end. -/
theorem takeFeed_stopping (c : Converter α) (p : Progress) (feed : Feed α) :
    ((p.takeFeed c feed).1, (p.takeFeed c feed).2.writer) =
      (Account.ofFeed c feed).stopping p.writer := by
  have hall := takeAll_behind c p feed.arrivals
  have hrecords : (Account.ofFeed c feed).records = settledRecords (feed.arrivals.map fun a =>
      ⟨a.startLine, c.render a.entry, c.convert a.entry⟩) := rfl
  rw [Account.stopping, hrecords, takeFeed]
  dsimp only [Account.ofFeed, Account.result] at hall ⊢
  generalize p.writer.writeAll c.layout _ = written at hall ⊢
  generalize List.findSome? Verdict.halt? _ = first at hall ⊢
  rcases htake : p.takeAll c feed.arrivals with ⟨stop | _, q⟩ <;> rw [htake] at hall <;>
    rcases written with ⟨fault | _, w⟩ <;> rcases first with _ | halt <;> cases hall
  · rfl
  · rfl
  · rfl
  · cases feed.ending <;> rfl

theorem close_of_flush_ok {p : Progress} (h : p.writer.flush.1 = .ok ()) (r : Result) :
    (close (r, p)).1 = r := by
  rcases hflush : p.writer.flush with ⟨_ | _, w⟩ <;> rw [hflush] at h
  · cases h
  · rcases r with (f | o) | _ <;> simp only [close, hflush]

theorem close_of_flush_error {p : Progress} {fault : SinkFault}
    (h : p.writer.flush.1 = .error fault) {r : Result} (hr : ∀ o, r ≠ .error (.overflow o)) :
    (close (r, p)).1 = refusedBy fault := by
  rcases hflush : p.writer.flush with ⟨_ | _, w⟩ <;> rw [hflush] at h <;> cases h
  rcases r with (f | o) | _
  · simp only [close, hflush, refusedBy]
  · exact absurd rfl (hr o)
  · simp only [close, hflush, refusedBy]

end Progress

theorem Writer.flush_eq_ok_or (w : Writer) :
    w.flush.1 = .ok () ∨ w.flush.1 = .error .flushRefused := by
  rw [flush, Sink.flush]
  dsimp only
  split
  · exact .inr rfl
  · exact .inl rfl

namespace Account

open Progress

variable {a : Account} {w : Writer}

theorem stopping_of_written (h : (w.writeAll a.layout a.records).1 = .ok ()) :
    (a.stopping w).1 = a.result := by
  rw [stopping]
  rcases hwrite : w.writeAll a.layout a.records with ⟨fault | _, w'⟩ <;> rw [hwrite] at h
  · cases h
  · rfl

/-- The records before an entry that halts the run are the records of the account. -/
theorem records_of_split {before after : List Verdict} {v : Verdict}
    (hsplit : a.verdicts = before ++ v :: after) (hbefore : ∀ u ∈ before, u.halt? = none)
    (hv : v.halt? ≠ none) : a.records = before.filterMap Verdict.record? := by
  have hall : ∀ u ∈ before, u.halt?.isNone = true := fun u hu => by simp [hbefore u hu]
  rw [records, converted, hsplit, List.takeWhile_append_of_pos hall,
    List.takeWhile_cons_of_neg (by simpa using hv), List.append_nil]

theorem stopping_of_refused {before after : List Record} {r : Record} {fault : SinkFault}
    (hsplit : a.records = before ++ r :: after)
    (hbefore : (w.writeAll a.layout before).1 = .ok ())
    (hr : ((w.writeAll a.layout before).2.write a.layout r).1 = .error fault) :
    (a.stopping w).1 = refusedBy fault := by
  rcases hwrite : w.writeAll a.layout before with ⟨refusal | _, w'⟩ <;>
    rw [hwrite] at hbefore hr
  · cases hbefore
  · rw [stopping, hsplit, Writer.writeAll_append_of_ok hwrite, Writer.writeAll]
    rcases hlast : w'.write a.layout r with ⟨refusal | _, w''⟩ <;> rw [hlast] at hr <;> cases hr
    rfl

end Account

namespace Settings

open Progress

theorem takeSource_stopping (s : Settings) (b : BufferedSource) (p : Progress) :
    ((s.takeSource b p).1, (s.takeSource b p).2.writer) = (s.account b).stopping p.writer := by
  obtain ⟨α, c, feed, htake, haccount, -⟩ := s.exists_feed b
  rw [htake, haccount]
  exact takeFeed_stopping c p feed

/-- What stops the entries of a run is its malformed entry, the failure of its source behind them or
its refused record. The run reports just that if the flush at its end is accepted, and in particular
over a sink that refuses no flush. If that flush is refused, the run reports the refusal instead,
whatever stopped it but an overflow. -/
theorem run_reports_stop (s : Settings) (b : BufferedSource) (w : Writer) :
    let a := s.account b
    let stop := a.stopping w
    (s.takeSource b ⟨{}, w, #[]⟩).1 = stop.1 ∧
    (∀ before v after f, a.verdicts = before ++ v :: after → (∀ u ∈ before, u.halt? = none) →
      v.outcome = .error (.fault f) →
      (w.writeAll a.layout (before.filterMap Verdict.record?)).1 = .ok () →
        stop.1 = .error (.fault (.malformed v.line v.shown f))) ∧
    (∀ fault, (∀ v ∈ a.verdicts, v.halt? = none) → a.stop = some fault →
      (w.writeAll a.layout a.records).1 = .ok () → stop.1 = .error (.fault fault)) ∧
    (∀ before r after fault, a.records = before ++ r :: after →
      (w.writeAll a.layout before).1 = .ok () →
      ((w.writeAll a.layout before).2.write a.layout r).1 = .error fault →
        stop.1 = refusedBy fault) ∧
    (w.sink.refusedFlush = none → stop.2.flush.1 = .ok ()) ∧
    (stop.2.flush.1 ≠ .ok () → (∀ o, stop.1 ≠ .error (.overflow o)) →
      (s.run b w).1 = refusedBy .flushRefused) ∧
    ((s.run b w).1 = stop.1 ↔
      stop.2.flush.1 = .ok () ∨ stop.1 = refusedBy .flushRefused ∨
        ∃ o, stop.1 = .error (.overflow o)) := by
  intro a stop
  have htaken := s.takeSource_stopping b ⟨{}, w, #[]⟩
  have hresult : (s.takeSource b ⟨{}, w, #[]⟩).1 = stop.1 := congrArg Prod.fst htaken
  have hwriter : (s.takeSource b ⟨{}, w, #[]⟩).2.writer = stop.2 := congrArg Prod.snd htaken
  have hhidden : stop.2.flush.1 ≠ .ok () → (∀ o, stop.1 ≠ .error (.overflow o)) →
      (s.run b w).1 = refusedBy .flushRefused := by
    intro hflush hgoes
    have hrefused := (Writer.flush_eq_ok_or stop.2).resolve_left hflush
    rw [← hwriter] at hrefused
    rw [← hresult] at hgoes
    exact close_of_flush_error hrefused hgoes
  refine ⟨hresult, ?_, ?_, ?_, ?_, hhidden, ?_⟩
  · intro before v after f hsplit hbefore hv hwritten
    have hhalt : v.halt? = some (.fault (.malformed v.line v.shown f)) := by
      rw [Verdict.halt?, hv]
    rw [← Account.records_of_split hsplit hbefore (by simp [hhalt])] at hwritten
    exact (Account.stopping_of_written hwritten).trans
      (Account.result_of_split hsplit hbefore hhalt)
  · intro fault hverdicts hstop hwritten
    apply (Account.stopping_of_written hwritten).trans
    rw [Account.result, List.findSome?_eq_none_iff.2 hverdicts, hstop]
    rfl
  · intro before r after fault hsplit hbefore hr
    exact Account.stopping_of_refused hsplit hbefore hr
  · intro hnone
    have hstill : stop.2.sink.refusedFlush = none := by
      rw [← hnone, ← Writer.refusedFlush_writeAll w a.layout a.records]
      simp only [stop, Account.stopping]
      rcases w.writeAll a.layout a.records with ⟨fault | _, w'⟩ <;> rfl
    simp [Writer.flush, Sink.flush, hstill]
  · constructor
    · intro hsame
      by_contra hnot
      simp only [not_or, not_exists] at hnot
      exact hnot.2.1 (hsame.symm.trans (hhidden hnot.1 hnot.2.2))
    · rintro (hok | hrefused | ⟨o, hoverflow⟩)
      · rw [← hresult]
        rw [← hwriter] at hok
        exact close_of_flush_ok hok _
      · by_cases hok : stop.2.flush.1 = .ok ()
        · rw [← hresult]
          rw [← hwriter] at hok
          exact close_of_flush_ok hok _
        · rw [hrefused]
          exact hhidden hok fun o => hrefused ▸ (overflow_ne_refusedBy o _).symm
      · rw [run]
        generalize s.takeSource b ⟨{}, w, #[]⟩ = taken at hresult ⊢
        obtain ⟨r, p⟩ := taken
        cases hresult.trans hoverflow
        exact hoverflow.symm

def brokenEvents : BufferedSource :=
  .ofSource 64 (.ofReads [Text.toUtf8 ("\x7b\"sql\":\"a\",\"origin_time\":\"1\"," ++
    "\"thread_id\":\"7\",\"latency\":\"3\",\"db\":\"d\",\"user\":\"u\"\x7d\n" ++
    "\x7b\"db\":\"d\"\x7d\n").toList] none)

/-- The malformed event at the second line stops the run, but where the one flush of the run is
refused, only that is reported. -/
theorem run_hides_brokenEvents :
    let s : Settings := { dialect := .serviceAudit, zone := .fixed 0 }
    let w : Writer := ⟨.refusing 1, 10000, 0⟩
    ((s.account brokenEvents).stopping w).1 = .error (.fault (.malformed 2
      "\x7b\"db\":\"d\"\x7d".toList (.missingField "sql".toList))) ∧
      (s.run brokenEvents w).1 = refusedBy .flushRefused := by
  decide +kernel

/-- Over a sink that refuses no flush the malformed event is reported with its line and text. -/
theorem run_reports_stop_brokenEvents :
    let s : Settings := { dialect := .serviceAudit, zone := .fixed 0 }
    let w : Writer := ⟨⟨#[], 0, none, none⟩, 10000, 0⟩
    w.sink.refusedFlush = none ∧
      (s.run brokenEvents w).1 = .error (.fault (.malformed 2
        "\x7b\"db\":\"d\"\x7d".toList (.missingField "sql".toList))) := by
  intro s w
  obtain ⟨-, -, -, -, haccepts, -, hsame⟩ := s.run_reports_stop brokenEvents w
  refine ⟨rfl, (hsame.2 (.inl (haccepts rfl))).trans ?_⟩
  decide +kernel

end Settings
end ReplayLog
