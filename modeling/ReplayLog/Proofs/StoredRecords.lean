import Mathlib.Order.Interval.Finset.Nat
import ReplayLog.Proofs.ReadingFaults

/-! # Records in any sink

A sink may refuse lines and flushes. Whatever it refuses, a run stores records of the entries of its
source in their order, and the first refusal is the end of the run. What has been counted by then
depends on which of the two it was: a record whose line was refused is nowhere, and a record whose
flush was refused is in the sink and counted by the writer, but not by the run. -/
namespace ReplayLog

namespace Writer

/-- The number of flushes that fall due while the records written grow from one number to another:
the multiples of the interval among the numbers reached. At interval 0 there are none. -/
def dueFlushes (interval before after : Nat) : Nat :=
  ((Finset.Ioc before after).filter (interval ∣ ·)).card

@[simp] theorem dueFlushes_self (interval n : Nat) : dueFlushes interval n n = 0 := by
  rw [dueFlushes, Finset.Ioc_self, Finset.filter_empty, Finset.card_empty]

theorem dueFlushes_add {interval a b c : Nat} (hab : a ≤ b) (hbc : b ≤ c) :
    dueFlushes interval a b + dueFlushes interval b c = dueFlushes interval a c := by
  have hdisjoint : Disjoint ((Finset.Ioc a b).filter (interval ∣ ·))
      ((Finset.Ioc b c).filter (interval ∣ ·)) :=
    Finset.disjoint_filter_filter (Finset.Ioc_disjoint_Ioc_of_le (Nat.le_refl b))
  rw [dueFlushes, dueFlushes, dueFlushes, ← Finset.card_union_of_disjoint hdisjoint,
    ← Finset.filter_union, Finset.Ioc_union_Ioc_eq_Ioc hab hbc]

theorem dueFlushes_succ (interval n : Nat) :
    dueFlushes interval n (n + 1) = if interval ∣ n + 1 then 1 else 0 := by
  have hnext : Finset.Ioc n (n + 1) = {n + 1} := Nat.Ioc_succ_singleton n
  rw [dueFlushes, hnext, Finset.filter_singleton]
  split <;> rfl

/-- Once a record is written, a flush is due where the interval divides the number of records. -/
theorem isDue_iff {w : Writer} (h : w.written ≠ 0) : w.isDue = true ↔ w.interval ∣ w.written := by
  rw [isDue, Bool.and_eq_true, bne_iff_ne, beq_iff_eq, Nat.dvd_iff_mod_eq_zero]
  constructor
  · exact And.right
  · intro hmod
    refine ⟨?_, hmod⟩
    intro hzero
    rw [hzero, Nat.mod_zero] at hmod
    exact h hmod

/-- The second writer is the first one with the records stored and the flushes due made. -/
structure Grown (l : Layout) (records : List Record) (w w' : Writer) : Prop where
  interval : w'.interval = w.interval
  lines : w'.sink.lines.toList = w.sink.lines.toList ++ records.map l.line
  written : w'.written = w.written + records.length
  flushes : w'.sink.flushes = w.sink.flushes + dueFlushes w.interval w.written w'.written

namespace Grown

variable {l : Layout} {w w' w'' : Writer} {records more : List Record}

theorem refl (l : Layout) (w : Writer) : Grown l [] w w :=
  ⟨rfl, (List.append_nil _).symm, rfl, by rw [dueFlushes_self, Nat.add_zero]⟩

theorem trans (h : Grown l records w w') (h' : Grown l more w' w'') :
    Grown l (records ++ more) w w'' := by
  have hle : w.written ≤ w'.written := h.written ▸ Nat.le_add_right _ _
  have hle' : w'.written ≤ w''.written := h'.written ▸ Nat.le_add_right _ _
  refine ⟨h'.interval.trans h.interval, ?_, ?_, ?_⟩
  · rw [h'.lines, h.lines, List.map_append, List.append_assoc]
  · rw [h'.written, h.written, List.length_append, Nat.add_assoc]
  · rw [h'.flushes, h.flushes, h.interval, ← dueFlushes_add hle hle', Nat.add_assoc]

theorem text (h : Grown l records w w') :
    w'.sink.text = w.sink.text ++ records.flatMap fun r => l.line r ++ ['\n'] := by
  rw [Sink.text, Sink.text, h.lines, List.flatMap_append, List.flatMap_map]

end Grown

/-- A record is stored unless the sink refuses its line; the refusal of its flush comes too late. -/
theorem write_grown (w : Writer) (l : Layout) (r : Record) :
    Grown l (if (w.write l r).1 = .error .full then [] else [r]) w (w.write l r).2 := by
  obtain ⟨⟨lines, flushes, capacity, refusedFlush⟩, interval, written⟩ := w
  cases hfull : capacity.any (· ≤ lines.size) with
  | true =>
    simp only [write, Sink.store, hfull, if_true]
    exact .refl l _
  | false =>
    have hdue := isDue_iff (w := ⟨⟨lines.push (l.line r), flushes, capacity, refusedFlush⟩,
      interval, written + 1⟩) (Nat.succ_ne_zero written)
    simp only [write, Sink.store, hfull, Bool.false_eq_true, if_false]
    split
    · next h =>
      have hlate : ∀ refused : Bool, (if refused = true then Except.error SinkFault.flushRefused
          else .ok ()) ≠ .error .full := by decide
      simp only [flush, Sink.flush, hlate, if_false]
      refine ⟨rfl, by simp, rfl, ?_⟩
      rw [dueFlushes_succ, if_pos (hdue.1 h)]
    · next h =>
      refine ⟨rfl, by simp, rfl, ?_⟩
      rw [dueFlushes_succ, if_neg (mt hdue.2 h)]
      rfl

end Writer

namespace Progress

def refusedBy (fault : SinkFault) : Result := .error (.fault (.write fault.message))

/-- What was counted on the way from a state to a result and the state behind it. -/
structure Counted (l : Layout) (records : List Record) (p : Progress) (r : Result)
    (p' : Progress) : Prop where
  grown : p.writer.Grown l records p'.writer
  written : p'.tally.written + (if r = refusedBy .flushRefused then 1 else 0) =
    p.tally.written + records.length
  seen : p'.tally.seen + (p.tally.written + p.tally.ignored) =
    p.tally.seen + (p'.tally.written + p'.tally.ignored) +
      if r = refusedBy .full ∨ r = refusedBy .flushRefused then 1 else 0

theorem refusedBy_flushRefused_ne_full : refusedBy .flushRefused ≠ refusedBy .full := by decide

theorem ok_ne_refusedBy (fault : SinkFault) : (.ok () : Result) ≠ refusedBy fault := nofun

theorem error_ne_refusedBy {f : RunFault} (h : f.FromSource) (fault : SinkFault) :
    (.error (.fault f) : Result) ≠ refusedBy fault := by
  intro he
  injection he with he
  injection he with he
  exact h _ he

theorem overflow_ne_refusedBy (o : Overflow) (fault : SinkFault) :
    (.error (.overflow o) : Result) ≠ refusedBy fault := by
  intro h
  cases h

variable {l : Layout} {p p' q : Progress} {r : Result}

/-- Where the sink refuses nothing, the run and its writer count alike. -/
theorem Counted.of_not_refused {records : List Record} (hr : ∀ fault, r ≠ refusedBy fault)
    (hgrown : p.writer.Grown l records p'.writer)
    (hwritten : p'.tally.written = p.tally.written + records.length)
    (hseen : p'.tally.seen + (p.tally.written + p.tally.ignored) =
      p.tally.seen + (p'.tally.written + p'.tally.ignored)) : Counted l records p r p' where
  grown := hgrown
  written := by rw [if_neg (hr _), hwritten, Nat.add_zero]
  seen := by rw [if_neg (not_or.2 ⟨hr _, hr _⟩), hseen, Nat.add_zero]

theorem Counted.trans {records more : List Record} (h : Counted l records p (.ok ()) q)
    (h' : Counted l more q r p') : Counted l (records ++ more) p r p' := by
  have hwritten := h.written
  have hseen := h.seen
  rw [if_neg (ok_ne_refusedBy _)] at hwritten
  rw [if_neg (not_or.2 ⟨ok_ne_refusedBy _, ok_ne_refusedBy _⟩)] at hseen
  refine ⟨h.grown.trans h'.grown, ?_, ?_⟩
  · rw [h'.written, List.length_append]
    omega
  · have := h'.seen
    omega

/-- The records of the entries before the first one that stops a run. -/
def settledRecords (vs : List Verdict) : List Record :=
  (vs.takeWhile (·.halt?.isNone)).filterMap Verdict.record?

theorem settledRecords_cons {v : Verdict} (h : v.halt? = none) (vs : List Verdict) :
    settledRecords (v :: vs) = v.record?.toList ++ settledRecords vs := by
  rw [settledRecords, List.takeWhile_cons_of_pos (by rw [h]; rfl), List.filterMap_cons]
  cases v.record? <;> rfl

theorem record?_prefix_settledRecords (v : Verdict) (vs : List Verdict) :
    v.record?.toList <+: settledRecords (v :: vs) := by
  cases h : v.halt? with
  | none => exact settledRecords_cons h vs ▸ List.prefix_append _ _
  | some halt =>
    have hnone : v.record? = none := by
      rw [Verdict.record?]
      split
      · next r hr =>
        rw [Verdict.halt?, hr] at h
        cases h
      · rfl
    rw [hnone]
    exact List.nil_prefix

/-- What settling a record counts, by what the sink does with it. -/
theorem settle_emit_counted (p : Progress) (l : Layout) (r : Record) :
    (∃ p', p.settle l (.emit r) = (.ok (), p') ∧ Counted l [r] p (.ok ()) p') ∨
    (∃ fault p' records, p.settle l (.emit r) = (refusedBy fault, p') ∧ records <+: [r] ∧
      Counted l records p (refusedBy fault) p') := by
  obtain ⟨tally, writer, remarks⟩ := p
  have hgrown := writer.write_grown l r
  rw [settle]
  generalize writer.write l r = step at hgrown
  obtain ⟨(_ | _) | _, writer'⟩ := step
  · right
    rw [if_pos rfl] at hgrown
    refine ⟨.full, _, [], rfl, List.nil_prefix, hgrown, ?_, ?_⟩
    · rw [if_neg refusedBy_flushRefused_ne_full.symm]
      rfl
    · rw [if_pos (.inl rfl)]
      dsimp only
      omega
  · right
    have hstored : (.error .flushRefused : Except SinkFault Unit) ≠ .error .full := by decide
    rw [if_neg hstored] at hgrown
    refine ⟨.flushRefused, _, [r], rfl, List.prefix_refl _, hgrown, ?_, ?_⟩
    · rw [if_pos rfl]
      rfl
    · rw [if_pos (.inr rfl)]
      dsimp only
      omega
  · left
    have hstored : (.ok () : Except SinkFault Unit) ≠ .error .full := by decide
    rw [if_neg hstored] at hgrown
    refine ⟨_, rfl, .of_not_refused (fun _ => ok_ne_refusedBy _) hgrown rfl ?_⟩
    dsimp only
    omega

/-- One arrival counts with its record, if it has one, or it stops the run. -/
theorem take_counted {α : Type} (c : Converter α) (p : Progress) (a : Arrival α) :
    let v : Verdict := ⟨a.startLine, c.render a.entry, c.convert a.entry⟩
    (∃ p', p.take c a = (.ok (), p') ∧ v.halt? = none ∧
      Counted c.layout v.record?.toList p (.ok ()) p') ∨
    (∃ stop p' records, p.take c a = (.error stop, p') ∧ records <+: v.record?.toList ∧
      Counted c.layout records p (.error stop) p') := by
  intro v
  have hstill : Counted c.layout [] p (.ok ()) (p.atLine a.linesRead) :=
    .of_not_refused (fun _ => ok_ne_refusedBy _) (.refl _ _) rfl (Nat.add_comm _ _ ▸ rfl)
  cases hc : c.convert a.entry with
  | error halt =>
    right
    cases halt with
    | fault f =>
      simp only [v, Verdict.record?, take, hc]
      refine ⟨_, _, [], rfl, List.prefix_refl _, .of_not_refused ?_ (.refl _ _) rfl rfl⟩
      exact error_ne_refusedBy (RunFault.fromSource_malformed _ _ _)
    | overflow o =>
      simp only [v, Verdict.record?, take, hc]
      refine ⟨_, _, [], rfl, List.prefix_refl _, .of_not_refused ?_ (.refl _ _) rfl rfl⟩
      exact overflow_ne_refusedBy o
  | ok outcome =>
    cases outcome with
    | empty =>
      left
      simp only [v, Verdict.halt?, Verdict.record?, take, hc, settle]
      exact ⟨_, rfl, trivial, hstill⟩
    | ignore reason =>
      left
      simp only [v, Verdict.halt?, Verdict.record?, take, hc, settle, atLine]
      refine ⟨_, rfl, trivial, .of_not_refused (fun _ => ok_ne_refusedBy _) (.refl _ _) rfl ?_⟩
      dsimp only
      omega
    | emit r =>
      simp only [v, Verdict.halt?, Verdict.record?, take, hc]
      rcases (p.atLine a.linesRead).settle_emit_counted c.layout r with
        ⟨p', hsettle, hcounted⟩ | ⟨fault, p', records, hsettle, hfront, hcounted⟩
      · exact .inl ⟨p', hsettle, trivial, hstill.trans hcounted⟩
      · exact .inr ⟨_, p', records, hsettle, hfront, hstill.trans hcounted⟩

/-- All arrivals count up to the first that stops the run. -/
theorem takeAll_counted {α : Type} (c : Converter α) (p : Progress) (arrivals : List (Arrival α)) :
    ∃ records, records <+: settledRecords (arrivals.map fun a =>
        ⟨a.startLine, c.render a.entry, c.convert a.entry⟩) ∧
      Counted c.layout records p (p.takeAll c arrivals).1 (p.takeAll c arrivals).2 := by
  induction arrivals generalizing p with
  | nil =>
    exact ⟨[], List.prefix_refl _,
      .of_not_refused (fun _ => ok_ne_refusedBy _) (.refl _ _) rfl rfl⟩
  | cons a arrivals ih =>
    rw [List.map_cons, takeAll]
    rcases take_counted c p a with
      ⟨q, htake, hhalt, hcounted⟩ | ⟨stop, q, records, htake, hfront, hcounted⟩
    · obtain ⟨records, hfront, hrest⟩ := ih q
      rw [htake, settledRecords_cons hhalt]
      exact ⟨_, (List.prefix_append_right_inj _).2 hfront, hcounted.trans hrest⟩
    · rw [htake]
      exact ⟨records, hfront.trans (record?_prefix_settledRecords _ _), hcounted⟩

theorem finish_counted (p : Progress) (linesRead : Nat) {ending : Ending}
    (h : ∀ fault, ending = .failed fault → fault.FromSource) :
    Counted l [] p (p.finish linesRead ending).1 (p.finish linesRead ending).2 := by
  cases ending with
  | failed fault =>
    exact .of_not_refused (error_ne_refusedBy (h fault rfl)) (.refl _ _) rfl rfl
  | finished preamble dropped =>
    exact .of_not_refused (fun _ => ok_ne_refusedBy _) (.refl _ _) rfl rfl

/-- What taking a feed counts, up to the flush at the end. -/
theorem takeFeed_counted {α : Type} (c : Converter α) (p : Progress) {feed : Feed α}
    (h : ∀ fault, feed.ending = .failed fault → fault.FromSource) :
    ∃ records, records <+: (Account.ofFeed c feed).records ∧
      Counted c.layout records p (p.takeFeed c feed).1 (p.takeFeed c feed).2 := by
  obtain ⟨records, hfront, hcounted⟩ := takeAll_counted c p feed.arrivals
  refine ⟨records, hfront, ?_⟩
  rw [takeFeed]
  generalize p.takeAll c feed.arrivals = taken at hcounted
  obtain ⟨stop | _, q⟩ := taken
  · exact hcounted
  · exact List.append_nil records ▸ hcounted.trans (q.finish_counted feed.linesRead h)

/-- The flush at the end, which only an overflow leaves out, counts no entry and stores nothing. -/
theorem close_counts (r : Result) (p : Progress) :
    (close (r, p)).2.tally = p.tally ∧
    (close (r, p)).2.writer.written = p.writer.written ∧
    (close (r, p)).2.writer.sink.lines = p.writer.sink.lines ∧
    (close (r, p)).2.writer.sink.flushes =
      p.writer.sink.flushes + match (close (r, p)).1 with
        | .error (.overflow _) => 0
        | _ => 1 := by
  cases hrefused : p.writer.sink.refusedFlush.any (· (p.writer.sink.flushes + 1)) with
  | true | false =>
    rcases r with (f | o) | _ <;>
      simp only [close, Writer.flush, Sink.flush, hrefused, if_true, Bool.false_eq_true, if_false,
        Nat.add_zero, and_self]

end Progress

namespace Settings

/-- Up to the flush at its end a run counts for records of its source, in order. -/
theorem takeSource_counted (s : Settings) (b : BufferedSource) (w : Writer) :
    ∃ records, records <+: (s.account b).records ∧
      Progress.Counted s.dialect.layout records ⟨{}, w, #[]⟩ (s.takeSource b ⟨{}, w, #[]⟩).1
        (s.takeSource b ⟨{}, w, #[]⟩).2 := by
  obtain ⟨α, c, feed, htake, haccount, hlayout⟩ := s.exists_feed b
  rw [htake, haccount, ← hlayout]
  apply Progress.takeFeed_counted
  intro fault hfault
  apply fromSource_of_stop (s := s) (b := b)
  rw [haccount, Account.ofFeed, hfault]

/-- A run stores records of its source, in order, and its flush at the end stores nothing. -/
theorem run_stores (s : Settings) (b : BufferedSource) (w : Writer) :
    ∃ records, records <+: (s.account b).records ∧
      (s.run b w).2.writer.sink.lines.toList =
        w.sink.lines.toList ++ records.map s.dialect.layout.line := by
  obtain ⟨records, hfront, hcounted⟩ := s.takeSource_counted b w
  obtain ⟨-, -, hlines, -⟩ := Progress.close_counts (s.takeSource b ⟨{}, w, #[]⟩).1
    (s.takeSource b ⟨{}, w, #[]⟩).2
  refine ⟨records, hfront, ?_⟩
  rw [run, hlines, hcounted.grown.lines]

end Settings
end ReplayLog
