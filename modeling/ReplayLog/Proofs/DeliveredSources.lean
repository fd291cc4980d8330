import ReplayLog.Cli.Run
import ReplayLog.Proofs.QuotedAgreement

/-! # How a source is delivered

A source hands out its bytes in reads of its own choosing, and they come through a buffer of some
capacity. A run depends on neither where its reader sees all that the source has. Lines are all seen
through any buffer but one without capacity, which shows an empty source in the place of any other.
Of a table everything is seen but the mark in front of it, which must be in the first read with
something behind it: a read of nothing but the mark is taken for the end, and a mark that is cut is
left to the name of the first column. -/
namespace ReplayLog

open LeadingSpace

/-- The source of the reads, empty ones left out, behind a buffer. -/
def delivered (capacity : Nat) (reads : List (List UInt8)) (failure : Option String) :
    BufferedSource :=
  .ofSource capacity (.ofReads reads failure)

section FirstRead

variable {capacity most : Nat} {first : List UInt8} {reads : List (List UInt8)}
  {failure : Option String}

theorem bytes_delivered : (delivered capacity reads failure).bytes = reads.flatten :=
  List.flatten_filter_not_isEmpty

theorem passing_delivered : (Sieve.ofSource (delivered capacity reads failure)).passing =
    (sift .fieldStart reads.flatten).1 := by
  rw [Sieve.passing_ofSource, bytes_delivered]

theorem Source.read_ofReads (h : first ≠ []) (reads : List (List UInt8)) (failure : Option String)
    (most : Nat) :
    ((Source.ofReads (first :: reads) failure).read most).1 = .ok (first.take most) := by
  have hreads : (Source.ofReads (first :: reads) failure).reads =
      first :: reads.filter (!·.isEmpty) := by
    simp [ofReads, h]
  unfold Source.read
  split
  · next hnil => simp [hreads] at hnil
  · next bytes rest hcons =>
    obtain ⟨rfl, -⟩ := List.cons.inj (hreads.symm.trans hcons)
    split
    · next hdrop => rw [List.take_of_length_le (List.drop_eq_nil_iff.1 hdrop)]
    · rfl

theorem BufferedSource.read_of_empty {b : BufferedSource} (h : b.held = []) (most : Nat) :
    (b.read most).1 = if b.capacity ≤ most then (b.source.read most).1
      else (b.source.read b.capacity).1.map (·.take most) := by
  by_cases hsmall : b.capacity ≤ most
  · rw [BufferedSource.read, h, if_pos (by simpa using hsmall), if_pos hsmall]
  · have hfill : ¬(b.held.isEmpty && b.capacity ≤ most) = true := by simp [hsmall]
    rw [BufferedSource.read, if_neg hfill, fill, if_pos (List.isEmpty_iff.2 h), if_neg hsmall]
    generalize b.source.read b.capacity = p
    obtain ⟨_ | _, _⟩ := p <;> rfl

/-- The first read begins the first read of the source, whatever the capacity. -/
theorem BufferedSource.read_delivered (h : first ≠ []) (most : Nat) :
    ((delivered capacity (first :: reads) failure).read most).1 = .ok (first.take most) := by
  have hheld : (delivered capacity (first :: reads) failure).held = [] := rfl
  rw [read_of_empty hheld]
  split
  · exact Source.read_ofReads h reads failure most
  · next hsmall =>
    have hmin : min most capacity = most := Nat.min_eq_left (Nat.le_of_not_le hsmall)
    have hread := Source.read_ofReads h reads failure capacity
    refine (congrArg (Except.map (·.take most)) hread).trans ?_
    rw [Except.map, List.take_take, hmin]

namespace LeadingSpace

theorem Sieve.read_of_kept {s : Sieve} {bs : List UInt8} (h : (s.source.read most).1 = .ok bs)
    (hkept : (sift s.state bs).1 ≠ []) : (s.read most).1 = .ok (sift s.state bs).1 := by
  unfold Sieve.read
  split
  · next hread => rw [hread] at h; cases h
  · next hread =>
    rw [hread] at h
    cases h
    exact absurd rfl hkept
  · next hread =>
    rw [hread] at h
    cases h
    split
    · next hnone => exact absurd (congrArg Prod.fst hnone) hkept
    · next hsome => rw [hsome]

/-- What a drain takes first is what one read hands out. -/
theorem Sieve.headD_drain (hmost : most ≠ 0) (s : Sieve) :
    (s.drain most).1.headD [] = handedOut (s.read most).1 := by
  unfold drain drainFrom
  split
  · next hread => rw [hread]; rfl
  · next hread => rw [hread]; rfl
  · next x bs s' hread =>
    obtain ⟨reads, hdrain, -⟩ := drainFrom_eq hmost [x :: bs] s'
    rw [hdrain, hread]
    rfl

end LeadingSpace
end FirstRead

namespace LeadingSpace

theorem State.next_of_dropped {s : State} {b : UInt8} (h : ¬s.keeps b = true) : s.next b = s := by
  obtain rfl := State.eq_space_of_dropped h
  cases s with
  | fieldStart => rfl
  | bare => exact absurd rfl h
  | quoted => exact absurd rfl h
  | quoteInQuoted => exact absurd rfl h

/-- What has passed passes again. -/
theorem sift_sift (s : State) (bs : List UInt8) : sift s (sift s bs).1 = sift s bs := by
  induction bs generalizing s with
  | nil => rfl
  | cons b bs ih =>
    by_cases h : s.keeps b = true
    · simp only [sift, h, if_true, ih]
    · have hstate : s.next b = s := State.next_of_dropped h
      simp only [sift, h, hstate]
      exact ih s

end LeadingSpace

namespace Table

def firstRead (b : BufferedSource) : List UInt8 :=
  Sieve.handedOut ((Sieve.ofSource b).read readSize).1

/-- The bytes that the grammar is given, and the words of the failure behind them. -/
def shown (b : BufferedSource) : List UInt8 × Option String :=
  let drained := (Sieve.ofSource b).drain readSize
  content drained.2 drained.1

theorem shown_eq (b : BufferedSource) :
    shown b = if firstRead b = mark then ([], none)
      else (unmarked (decide (mark <+: firstRead b)) (Sieve.ofSource b).passing,
        b.source.failure) := by
  obtain ⟨reads, hdrain, hreads⟩ := Sieve.drain_eq (show readSize ≠ 0 by decide) (.ofSource b)
  have hfirst := Sieve.headD_drain (show readSize ≠ 0 by decide) (.ofSource b)
  rw [hdrain] at hfirst
  simp only [shown, hdrain, content_of_first, hreads]
  rw [show reads.headD [] = firstRead b from hfirst]
  rfl

theorem ofSource_of_shown {b b' : BufferedSource} (h : shown b = shown b') (e : Encoding) :
    ofSource e b = ofSource e b' := by
  unfold ofSource
  unfold shown at h
  generalize (Sieve.ofSource b).drain readSize = drained at h ⊢
  generalize (Sieve.ofSource b').drain readSize = drained' at h ⊢
  obtain ⟨reads, stopped⟩ := drained
  obtain ⟨reads', stopped'⟩ := drained'
  dsimp only at h ⊢
  rw [h]

/-- The sieve first hands out what passes of the first read, if anything does. -/
theorem firstRead_delivered {first : List UInt8}
    (h : (sift .fieldStart (first.take readSize)).1 ≠ []) (capacity : Nat)
    (reads : List (List UInt8)) (failure : Option String) :
    firstRead (delivered capacity (first :: reads) failure) =
      (sift .fieldStart (first.take readSize)).1 := by
  have hne : first ≠ [] := by
    rintro rfl
    exact h rfl
  have hread := Sieve.read_of_kept (s := .ofSource (delivered capacity (first :: reads) failure))
    (BufferedSource.read_delivered hne readSize) h
  rw [firstRead, hread]
  rfl

/-- The first read is in front of all that passes. -/
theorem firstRead_isPrefix (b : BufferedSource) : firstRead b <+: (Sieve.ofSource b).passing := by
  have hpassing := Sieve.passing_of_read (s := .ofSource b) (show readSize ≠ 0 by decide) rfl
  exact ⟨_, hpassing.symm⟩

/-- The mark passes whole at the start of a field, and leaves the field bare. -/
theorem sift_mark {s : State} (h : s = .fieldStart ∨ s = .bare) (bs : List UInt8) :
    sift s (mark ++ bs) = (mark ++ (sift .bare bs).1, (sift .bare bs).2) := by
  rcases h with rfl | rfl <;> rfl

/-- Of two marks only the one in front is taken off. -/
theorem shown_behind_mark {bs : List UInt8} (h : mark <+: (sift .fieldStart bs).1)
    (failure : Option String) :
    shown (delivered 1 [mark ++ (sift .fieldStart bs).1] failure) =
      ((sift .fieldStart bs).1, failure) := by
  obtain ⟨rest, hrest⟩ := h
  have hagain : (sift .bare (sift .fieldStart bs).1).1 = (sift .fieldStart bs).1 := by
    have hsift := congrArg Prod.fst (sift_sift .fieldStart bs)
    rw [← hrest, sift_mark (.inl rfl)] at hsift
    rw [← hrest, sift_mark (.inr rfl)]
    exact hsift
  generalize hpassing : (sift .fieldStart bs).1 = passing at hrest hagain ⊢
  have hfirst : firstRead (delivered 1 [mark ++ passing] failure) =
      mark ++ (mark ++ (sift .bare (rest.take (readSize - 6))).1) := by
    have htake : (mark ++ passing).take readSize = mark ++ (mark ++ rest.take (readSize - 6)) := by
      rw [← hrest]
      rfl
    have hsift : (sift .fieldStart ((mark ++ passing).take readSize)).1 =
        mark ++ (mark ++ (sift .bare (rest.take (readSize - 6))).1) := by
      rw [htake, sift_mark (.inl rfl), sift_mark (.inr rfl)]
    have hne : (sift .fieldStart ((mark ++ passing).take readSize)).1 ≠ [] := by
      rw [hsift]
      exact List.cons_ne_nil _ _
    rw [firstRead_delivered hne, hsift]
  have hbehind : (Sieve.ofSource (delivered 1 [mark ++ passing] failure)).passing =
      mark ++ passing := by
    rw [passing_delivered, List.flatten_singleton, sift_mark (.inl rfl), hagain]
  have hne : mark ++ (mark ++ (sift .bare (rest.take (readSize - 6))).1) ≠ mark := by
    intro heq
    have hlength := congrArg List.length heq
    simp [mark] at hlength
  rw [shown_eq, hfirst, if_neg hne, hbehind, unmarked,
    if_pos ⟨decide_eq_true (List.prefix_append _ _), List.prefix_append _ _⟩, List.drop_left]
  rfl

/-- The grammar is given all that passes, without the mark, if its reader sees the mark wherever it
is. -/
theorem shown_of_sees {b : BufferedSource}
    (h : mark <+: (Sieve.ofSource b).passing → mark <+: firstRead b ∧ firstRead b ≠ mark) :
    shown b = (unmarked true (Sieve.ofSource b).passing, b.source.failure) := by
  by_cases hmark : mark <+: (Sieve.ofSource b).passing
  · obtain ⟨hfirst, hne⟩ := h hmark
    rw [shown_eq, if_neg hne, decide_eq_true hfirst]
  · have hne : firstRead b ≠ mark := fun heq => hmark (heq ▸ firstRead_isPrefix b)
    rw [shown_eq, if_neg hne, unmarked, unmarked, if_neg fun hseen => hmark hseen.2,
      if_neg fun hseen => hmark hseen.2]

end Table

namespace Settings

open Table (mark)

/-- What the reader of the dialect makes of a source: the bytes that it sees, and the words of the
failure behind them. -/
def shown (s : Settings) (b : BufferedSource) : List UInt8 × Option String :=
  match s.dialect with
  | .serviceExport => Table.shown b
  | _ => (b.shownBytes, b.shownFailure)

/-- Whether the reader sees all that the source has. A reader of lines does unless its buffer has no
capacity; a reader of tables, which sees all bytes, must know a mark in front of them by the first
read. -/
def SeesAll (s : Settings) (b : BufferedSource) : Prop :=
  match s.dialect with
  | .serviceExport => mark <+: (Sieve.ofSource b).passing →
      mark <+: Table.firstRead b ∧ Table.firstRead b ≠ mark
  | _ => b.capacity = 0 → b.source.reads = []

variable {s : Settings} {b b' : BufferedSource}

theorem shown_of_lines (h : s.dialect ≠ .serviceExport) (b : BufferedSource) :
    s.shown b = (b.shownBytes, b.shownFailure) := by
  rw [shown]
  split
  · next htable => exact absurd htable h
  · rfl

theorem shown_of_table (h : s.dialect = .serviceExport) (b : BufferedSource) :
    s.shown b = Table.shown b := by
  rw [shown, h]

theorem seesAll_lines_iff (h : s.dialect ≠ .serviceExport) (b : BufferedSource) :
    s.SeesAll b ↔ (b.capacity = 0 → b.source.reads = []) := by
  rw [SeesAll]
  split
  · next htable => exact absurd htable h
  · rfl

theorem seesAll_table_iff (h : s.dialect = .serviceExport) (b : BufferedSource) :
    s.SeesAll b ↔ (mark <+: (Sieve.ofSource b).passing →
      mark <+: Table.firstRead b ∧ Table.firstRead b ≠ mark) := by
  rw [SeesAll, h]

/-- A run depends on its source only through what its reader sees of it. -/
theorem run_of_shown (h : s.shown b = s.shown b') (w : Writer) : s.run b w = s.run b' w := by
  have hlines (hshown : (b.shownBytes, b.shownFailure) = (b'.shownBytes, b'.shownFailure)) :
      b.lines s.encoding = b'.lines s.encoding := by
    obtain ⟨hbytes, hfailure⟩ := Prod.mk.inj hshown
    rw [lines_eq_physicalLines, lines_eq_physicalLines, hbytes, hfailure]
  rw [run, run, takeSource, takeSource]
  rw [shown, shown] at h
  cases hd : s.dialect <;> rw [hd] at h
  case serviceExport => simp only [Table.ofSource_of_shown h]
  all_goals simp only [hlines h]

/-- A reader that sees everything sees the same of all sources with the same bytes and the same
failure behind them. -/
theorem shown_of_seesAll (h : s.SeesAll b) (h' : s.SeesAll b') (hbytes : b.bytes = b'.bytes)
    (hfailure : b.source.failure = b'.source.failure) : s.shown b = s.shown b' := by
  by_cases htable : s.dialect = .serviceExport
  · rw [shown_of_table htable, shown_of_table htable,
      Table.shown_of_sees ((seesAll_table_iff htable b).1 h),
      Table.shown_of_sees ((seesAll_table_iff htable b').1 h'), hfailure,
      Sieve.passing_ofSource, Sieve.passing_ofSource, hbytes]
  · obtain ⟨hshown, hshown'⟩ := b.shown_of_capacity ((seesAll_lines_iff htable b).1 h)
    obtain ⟨hshown₁, hshown₁'⟩ := b'.shown_of_capacity ((seesAll_lines_iff htable b').1 h')
    rw [shown_of_lines htable, shown_of_lines htable, hshown, hshown', hshown₁, hshown₁', hbytes,
      hfailure]

/-- An empty source, which every reader sees as it is. -/
theorem shown_empty (s : Settings) : s.shown (delivered 1 [] none) = ([], none) := by
  by_cases htable : s.dialect = .serviceExport
  · rw [shown_of_table htable]
    decide +kernel
  · rw [shown_of_lines htable]
    rfl

section Deliveries

variable (s) (w : Writer) (capacity : Nat) (reads : List (List UInt8)) (failure : Option String)

theorem seesAll_delivered_iff (h : s.dialect ≠ .serviceExport) :
    s.SeesAll (delivered capacity reads failure) ↔ (capacity = 0 → reads.flatten = []) := by
  rw [seesAll_lines_iff h]
  refine forall_congr' fun _ => ?_
  change reads.filter (!·.isEmpty) = [] ↔ reads.flatten = []
  simp

/-- A buffer without capacity makes the source look empty. -/
theorem run_unseen_lines (h : s.dialect ≠ .serviceExport)
    (hunseen : ¬s.SeesAll (delivered capacity reads failure)) :
    s.run (delivered capacity reads failure) w = s.run (delivered 1 [] none) w := by
  rw [seesAll_lines_iff h, Classical.not_imp] at hunseen
  obtain ⟨hzero, hne⟩ := hunseen
  refine run_of_shown ?_ w
  rw [shown_empty, shown_of_lines h, BufferedSource.shownBytes, BufferedSource.shownFailure,
    if_pos hzero, if_pos ⟨hzero, hne⟩]
  rfl

/-- A mark that is not seen is either taken for the end or left to the first column. -/
theorem run_unseen_mark (h : s.dialect = .serviceExport)
    (hunseen : ¬s.SeesAll (delivered capacity reads failure)) :
    mark <+: (sift .fieldStart reads.flatten).1 ∧
    let first := Table.firstRead (delivered capacity reads failure)
    (first = mark ∧
        s.run (delivered capacity reads failure) w = s.run (delivered 1 [] none) w ∨
      first <+: mark ∧ first ≠ mark ∧ s.run (delivered capacity reads failure) w =
        s.run (delivered 1 [mark ++ (sift .fieldStart reads.flatten).1] failure) w) := by
  rw [seesAll_table_iff h, Classical.not_imp, passing_delivered] at hunseen
  obtain ⟨hmark, hfirst⟩ := hunseen
  refine ⟨hmark, ?_⟩
  by_cases heq : Table.firstRead (delivered capacity reads failure) = mark
  · refine .inl ⟨heq, run_of_shown ?_ w⟩
    rw [shown_empty, shown_of_table h, Table.shown_eq, if_pos heq]
  · have hcut : ¬mark <+: Table.firstRead (delivered capacity reads failure) :=
      fun hwhole => hfirst ⟨hwhole, heq⟩
    have hprefix := Table.firstRead_isPrefix (delivered capacity reads failure)
    rw [passing_delivered] at hprefix
    refine .inr ⟨(List.prefix_or_prefix_of_prefix hprefix hmark).resolve_right hcut, heq,
      run_of_shown ?_ w⟩
    rw [shown_of_table h, shown_of_table h, Table.shown_behind_mark hmark, Table.shown_eq,
      if_neg heq, Table.unmarked, if_neg fun hseen => hcut (of_decide_eq_true hseen.1),
      passing_delivered]
    rfl

/-- How a source is delivered does not matter to a run that sees all of it in either way, nor to the
command, which differs in the size of the buffer. Lines are all seen unless a source that is not
empty comes through a buffer without capacity, and then it looks empty. A table is all seen unless a
mark of UTF-8 is in front of what passes the sieve, and also then if more than the mark passes of the
first read. Otherwise the source looks empty, or its mark counts as text, as one behind another mark
does. -/
theorem run_delivered :
    (∀ capacity' reads', reads'.flatten = reads.flatten →
      s.SeesAll (delivered capacity reads failure) →
      s.SeesAll (delivered capacity' reads' failure) →
      s.run (delivered capacity' reads' failure) w = s.run (delivered capacity reads failure) w) ∧
    (∀ {m : Type → Type} [Monad m] (host : Cli.Host m) (a : Cli.Arguments) (zone : Zone)
      (src dest : Text) (size : Nat) (reads' : List (List UInt8)),
      reads'.flatten = reads.flatten →
      (a.settings zone).SeesAll (delivered a.capacity reads failure) →
      (a.settings zone).SeesAll (delivered size reads' failure) →
      Cli.convert host { a with bufferSize := some size } zone src dest (.ofReads reads' failure) =
        Cli.convert host a zone src dest (.ofReads reads failure)) ∧
    (s.dialect ≠ .serviceExport →
      (s.SeesAll (delivered capacity reads failure) ↔ (capacity = 0 → reads.flatten = [])) ∧
      (¬s.SeesAll (delivered capacity reads failure) →
        s.run (delivered capacity reads failure) w = s.run (delivered 1 [] none) w)) ∧
    (s.dialect = .serviceExport →
      (¬mark <+: (sift .fieldStart reads.flatten).1 →
        s.SeesAll (delivered capacity reads failure)) ∧
      (∀ first rest, reads = first :: rest →
        mark.length < (sift .fieldStart (first.take Table.readSize)).1.length →
        s.SeesAll (delivered capacity reads failure)) ∧
      (¬s.SeesAll (delivered capacity reads failure) →
        mark <+: (sift .fieldStart reads.flatten).1 ∧
        let first := Table.firstRead (delivered capacity reads failure)
        (first = mark ∧
            s.run (delivered capacity reads failure) w = s.run (delivered 1 [] none) w ∨
          first <+: mark ∧ first ≠ mark ∧ s.run (delivered capacity reads failure) w =
            s.run (delivered 1 [mark ++ (sift .fieldStart reads.flatten).1] failure) w))) := by
  have hrun {s : Settings} {capacity capacity' : Nat} {reads' : List (List UInt8)} {w : Writer}
      (hreads : reads'.flatten = reads.flatten) (h : s.SeesAll (delivered capacity reads failure))
      (h' : s.SeesAll (delivered capacity' reads' failure)) :
      s.run (delivered capacity' reads' failure) w = s.run (delivered capacity reads failure) w :=
    run_of_shown (shown_of_seesAll h' h
      (bytes_delivered.trans (hreads.trans bytes_delivered.symm)) rfl) w
  refine ⟨fun capacity' reads' hreads h h' => hrun hreads h h', ?_, fun htable => ⟨?_, ?_⟩,
    fun htable => ⟨?_, ?_, ?_⟩⟩
  · intro m _ host a zone src dest size reads' hreads h h'
    have hsame := hrun (w := { sink := {}, interval := a.interval }) hreads h h'
    have hsettings : Cli.Arguments.settings { a with bufferSize := some size } zone =
        a.settings zone := rfl
    have hinterval : Cli.Arguments.interval { a with bufferSize := some size } = a.interval := rfl
    have hverbose : Cli.Arguments.has { a with bufferSize := some size } .verbose =
        a.has .verbose := rfl
    have hcapacity : Cli.Arguments.capacity { a with bufferSize := some size } = size := rfl
    rw [delivered, delivered] at hsame
    simp only [Cli.convert, hsettings, hinterval, hverbose, hcapacity, hsame]
  · exact s.seesAll_delivered_iff capacity reads failure htable
  · exact s.run_unseen_lines w capacity reads failure htable
  · intro hmark
    rw [seesAll_table_iff htable, passing_delivered]
    exact fun hfront => absurd hfront hmark
  · rintro first rest rfl hlength
    have hne : (sift .fieldStart (first.take Table.readSize)).1 ≠ [] :=
      List.ne_nil_of_length_pos (Nat.zero_lt_of_lt hlength)
    have hfirst := Table.firstRead_delivered hne capacity rest failure
    rw [seesAll_table_iff htable]
    intro hfront
    refine ⟨List.prefix_of_prefix_length_le hfront (Table.firstRead_isPrefix _) ?_, ?_⟩
    · rw [hfirst]
      exact Nat.le_of_lt hlength
    · intro heq
      rw [← hfirst, heq] at hlength
      exact absurd hlength (Nat.lt_irrefl _)
  · exact s.run_unseen_mark w capacity reads failure htable

end Deliveries

def oneEvent : List UInt8 :=
  Text.toUtf8 ("\x7b\"sql\":\"a\",\"origin_time\":\"1\",\"thread_id\":\"7\"," ++
    "\"latency\":\"3\",\"db\":\"d\",\"user\":\"u\"\x7d\n").toList

/-- A table whose one statement is kept out of the records. -/
def oneRow : List UInt8 := Text.toUtf8 "SQL command\nlog\n".toList

/-- Without capacity the event is not seen, and the run ends well. Of the table with a mark, the row
is not seen behind a read of the mark alone, and its column not behind a mark that is cut. -/
theorem run_depends_on_delivery :
    let events : Settings := { dialect := .serviceAudit, zone := .fixed 0 }
    let table : Settings := { dialect := .serviceExport, zone := .fixed 0 }
    let w : Writer := ⟨{}, 1, 0⟩
    let unseen := events.run (delivered 0 [oneEvent] none) w
    let seen := events.run (delivered 1 [oneEvent] none) w
    (unseen.1 = .ok () ∧ seen.1 = .ok () ∧ unseen.2.writer.sink.text = [] ∧
      seen.2.writer.sink.text ≠ [] ∧ unseen.2.tally.written = 0 ∧ seen.2.tally.written = 1) ∧
    (table.run (delivered 64 [mark ++ oneRow] none) w).2.tally.ignored = 1 ∧
    (table.run (delivered 64 [mark, oneRow] none) w).1 = .ok () ∧
    (table.run (delivered 64 [mark, oneRow] none) w).2.tally.ignored = 0 ∧
    (table.run (delivered 64 [mark.take 1, mark.drop 1 ++ oneRow] none) w).1 ≠ .ok () := by
  decide +kernel

/-- The event is seen through one byte at a time and in two reads, and the table with its mark
without a buffer, too. -/
theorem run_delivered_oneEvent :
    let events : Settings := { dialect := .serviceAudit, zone := .fixed 0 }
    let table : Settings := { dialect := .serviceExport, zone := .fixed 0 }
    let w : Writer := ⟨{}, 1, 0⟩
    let cut := [oneEvent.take 7, oneEvent.drop 7]
    let marked := [mark ++ oneRow]
    (cut.flatten = [oneEvent].flatten ∧ events.SeesAll (delivered 1 [oneEvent] none) ∧
      events.SeesAll (delivered 64 cut none) ∧
      events.run (delivered 64 cut none) w = events.run (delivered 1 [oneEvent] none) w ∧
      (events.run (delivered 64 cut none) w).2.tally.written = 1) ∧
    (table.SeesAll (delivered 64 marked none) ∧ table.SeesAll (delivered 0 marked none) ∧
      table.run (delivered 0 marked none) w = table.run (delivered 64 marked none) w) := by
  intro events table w cut marked
  constructor
  · obtain ⟨hsame, -, hlines, -⟩ := events.run_delivered w 1 [oneEvent] none
    obtain ⟨-, -, hcut, -⟩ := events.run_delivered w 64 cut none
    have hreads : cut.flatten = [oneEvent].flatten := by decide +kernel
    have hseen := (hlines nofun).1.2 nofun
    have hseenCut := (hcut nofun).1.2 nofun
    have hrun := hsame 64 cut hreads hseen hseenCut
    exact ⟨hreads, hseen, hseenCut, hrun, hrun ▸ (by decide +kernel)⟩
  · obtain ⟨hsame, -, -, htable⟩ := table.run_delivered w 64 marked none
    obtain ⟨-, -, -, htable'⟩ := table.run_delivered w 0 marked none
    have hlength : mark.length <
        (sift .fieldStart ((mark ++ oneRow).take Table.readSize)).1.length := by
      decide +kernel
    have hseen := (htable rfl).2.1 _ _ rfl hlength
    have hseen' := (htable' rfl).2.1 _ _ rfl hlength
    exact ⟨hseen, hseen', hsame 0 marked rfl hseen hseen'⟩

end Settings
end ReplayLog
