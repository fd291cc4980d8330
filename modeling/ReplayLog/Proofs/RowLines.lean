import ReplayLog.Proofs.EntryLimits
import ReplayLog.Proofs.QuotedFields

/-! # The lines of rows

A row of a table is numbered by the line feeds up to the end of the row before it. That is the line
which the row starts on exactly if no line feed is skipped between the two. A carriage return ends a
row by itself, so the number is too small behind a row that ends in a carriage return and a line
feed, and behind a blank line. -/
namespace ReplayLog.Table
open LeadingSpace

namespace Reading

structure SameRow (r r' : Reading) : Prop where
  rows : r'.rows = r.rows
  line : r'.line = r.line
  lineFeeds : r'.lineFeeds = r.lineFeeds

/-- What an octet does once it is counted: it goes on with the row, or is skipped before it, or it
ends the row. -/
def Advances (b : UInt8) (r r' : Reading) : Prop :=
  SameRow r r' ∧ (r'.position = .rowStart ↔ r.position = .rowStart ∧ isRowEnd b = true) ∨
    r.position ≠ .rowStart ∧ r' = r.endRow

theorem SameRow.advances {b : UInt8} {r r' : Reading} (h : SameRow r r')
    (hr' : decide (r'.position = .rowStart) = false)
    (hr : ¬(r.position = .rowStart ∧ isRowEnd b = true)) : Advances b r r' :=
  .inl ⟨h, iff_of_false (of_decide_eq_false hr') hr⟩

theorem advances_stepUnquoted {b : UInt8} {r : Reading}
    (hr : ¬(r.position = .rowStart ∧ isRowEnd b = true)) : Advances b r (r.stepUnquoted b) := by
  rw [stepUnquoted]
  by_cases hcomma : (b == 0x2C) = true
  · rw [if_pos hcomma]
    exact SameRow.advances ⟨rfl, rfl, rfl⟩ rfl hr
  · rw [if_neg hcomma]
    by_cases hend : isRowEnd b = true
    · rw [if_pos hend]
      exact .inr ⟨fun hstart => hr ⟨hstart, hend⟩, rfl⟩
    · rw [if_neg hend]
      exact SameRow.advances ⟨rfl, rfl, rfl⟩ rfl hr

/-- An octet is counted if it is a line feed, and taken in its place. -/
theorem step_cases (r : Reading) (b : UInt8) :
    ∃ counted : Reading, counted.position = r.position ∧ counted.rows = r.rows ∧
      counted.line = r.line ∧
      counted.lineFeeds = r.lineFeeds + (if b = lineFeed then 1 else 0) ∧
      Advances b counted (r.step b) := by
  rw [step]
  generalize hcounted : (if b == 0x0A then { r with lineFeeds := r.lineFeeds + 1 } else r) = r'
  have hsame : r'.position = r.position ∧ r'.rows = r.rows ∧ r'.line = r.line ∧
      r'.lineFeeds = r.lineFeeds + (if b = lineFeed then 1 else 0) := by
    by_cases hb : b = lineFeed
    · have hbeq : (b == 0x0A) = true := beq_iff_eq.2 hb
      rw [← hcounted, if_pos hbeq, if_pos hb]
      exact ⟨rfl, rfl, rfl, rfl⟩
    · have hbeq : ¬(b == 0x0A) = true := mt beq_iff_eq.1 hb
      rw [← hcounted, if_neg hbeq, if_neg hb]
      exact ⟨rfl, rfl, rfl, rfl⟩
  refine ⟨r', hsame.1, hsame.2.1, hsame.2.2.1, hsame.2.2.2, ?_⟩
  by_cases hstart : r'.position = .rowStart
  · rw [hstart]
    dsimp only
    by_cases hend : isRowEnd b = true
    · rw [if_pos hend]
      exact .inl ⟨⟨rfl, rfl, rfl⟩, iff_of_true hstart ⟨hstart, hend⟩⟩
    · have hopens : ¬(r'.position = .rowStart ∧ isRowEnd b = true) := fun h => hend h.2
      rw [if_neg hend]
      split
      · exact SameRow.advances ⟨rfl, rfl, rfl⟩ rfl hopens
      · exact advances_stepUnquoted hopens
  · have hinside : ¬(r'.position = .rowStart ∧ isRowEnd b = true) := fun h => hstart h.1
    cases hp : r'.position with
    | rowStart => exact absurd hp hstart
    | bare => exact advances_stepUnquoted hinside
    | fieldStart | quoteInQuoted =>
      dsimp only
      split
      · exact SameRow.advances ⟨rfl, rfl, rfl⟩ rfl hinside
      · exact advances_stepUnquoted hinside
    | quoted =>
      dsimp only
      split
      · exact SameRow.advances ⟨rfl, rfl, rfl⟩ rfl hinside
      · exact SameRow.advances ⟨rfl, rfl, rfl⟩ rfl hinside

theorem lineFeeds_step (r : Reading) (b : UInt8) :
    (r.step b).lineFeeds = r.lineFeeds + (if b = lineFeed then 1 else 0) := by
  obtain ⟨counted, -, -, -, hcounted, ⟨hsame, -⟩ | ⟨-, hend⟩⟩ := r.step_cases b
  · rw [hsame.lineFeeds, hcounted]
  · rw [hend, ← hcounted]
    rfl

/-- Every line feed is counted, wherever it stands. -/
theorem lineFeeds_foldl (r : Reading) (bs : List UInt8) :
    (bs.foldl step r).lineFeeds = r.lineFeeds + bs.count lineFeed := by
  induction bs generalizing r with
  | nil => rfl
  | cons b bs ih =>
    rw [List.foldl_cons, ih, lineFeeds_step, List.count_cons, Nat.add_right_comm, Nat.add_assoc]
    simp only [beq_iff_eq]

end Reading

/-- The sieve keeps the line feeds. -/
theorem count_sift (s : State) (bs : List UInt8) :
    (sift s bs).1.count lineFeed = bs.count lineFeed := by
  induction bs generalizing s with
  | nil => rfl
  | cons b bs ih =>
    have hsift : (sift s (b :: bs)).1 =
        if s.keeps b then b :: (sift (s.next b) bs).1 else (sift (s.next b) bs).1 := rfl
    rw [hsift]
    split
    · rw [List.count_cons, List.count_cons, ih]
    · next hdropped =>
      have hb : b ≠ lineFeed := by
        rintro rfl
        exact hdropped (by cases s <;> rfl)
      rw [ih, List.count_cons_of_ne hb]

variable {seen : Bool} {bs : List UInt8}

theorem lineFeeds_readingOf (seen : Bool) (bs : List UInt8) :
    (readingOf seen bs).lineFeeds = bs.count lineFeed := by
  have hunmarked : ∀ kept, (unmarked seen kept).count lineFeed = kept.count lineFeed := by
    intro kept
    rw [unmarked]
    split
    · next hmark =>
      obtain ⟨rest, rfl⟩ := hmark.2
      rw [List.drop_left, List.count_append]
      exact (Nat.zero_add _).symm
    · rfl
  rw [readingOf, Reading.lineFeeds_foldl, hunmarked, count_sift]
  exact Nat.zero_add _

/-- Behind the first octets so many rows are complete, the last of them by the last octet, or no row
has begun; carriage returns, line feeds and dropped spaces are skipped behind them. -/
structure Skips (seen : Bool) (completed : Nat) (before gap : List UInt8) : Prop where
  ended : (readingOf seen before.dropLast).rows.size < completed ∨ before = [] ∨ AtMark seen before
  stands : ∀ p, p <+: gap → (readingOf seen (before ++ p)).position = .rowStart ∧
    (readingOf seen (before ++ p)).rows.size = completed
  lead : Lead gap

/-- The row behind so many rows begins with the octet behind the gap. -/
structure Opens (seen : Bool) (completed : Nat) (before gap : List UInt8) (first : UInt8) : Prop
    extends Skips seen completed before gap where
  leaves : (readingOf seen (before ++ gap ++ [first])).position ≠ .rowStart

/-- The line is that of the row behind so many rows, counted up to the end of the row before it. -/
def RowAt (seen : Bool) (bs : List UInt8) (completed line : Nat) : Prop :=
  ∃ before gap first, before ++ gap ++ [first] <+: bs ∧ Opens seen completed before gap first ∧
    line = 1 + before.count lineFeed

structure Numbered (seen : Bool) (bs : List UInt8) : Prop where
  rows : ∀ {k r}, (readingOf seen bs).rows[k]? = some r → RowAt seen bs k r.line
  current : (readingOf seen bs).position = .rowStart ∧
      (∃ before gap, bs = before ++ gap ∧ Skips seen (readingOf seen bs).rows.size before gap ∧
        (readingOf seen bs).line = 1 + before.count lineFeed) ∨
    (readingOf seen bs).position ≠ .rowStart ∧
      RowAt seen bs (readingOf seen bs).rows.size (readingOf seen bs).line

theorem RowAt.concat {completed line : Nat} (h : RowAt seen bs completed line) (b : UInt8) :
    RowAt seen (bs ++ [b]) completed line := by
  obtain ⟨before, gap, first, hfront, hopens, hline⟩ := h
  exact ⟨before, gap, first, hfront.trans (List.prefix_append _ _), hopens, hline⟩

/-- Nothing is skipped right behind the end of a row, or before the first one. -/
theorem skips_nil {completed : Nat}
    (hended : (readingOf seen bs.dropLast).rows.size < completed ∨ bs = [] ∨ AtMark seen bs)
    (hposition : (readingOf seen bs).position = .rowStart)
    (hrows : (readingOf seen bs).rows.size = completed) : Skips seen completed bs [] := by
  refine ⟨hended, ?_, lead_nil⟩
  intro p hp
  rw [List.prefix_nil.1 hp, List.append_nil]
  exact ⟨hposition, hrows⟩

theorem Skips.concat {completed : Nat} {before gap : List UInt8} {b : UInt8}
    (h : Skips seen completed before gap) (hb : b = space ∨ b = 0x0D ∨ b = 0x0A)
    (hposition : (readingOf seen (before ++ gap ++ [b])).position = .rowStart)
    (hrows : (readingOf seen (before ++ gap ++ [b])).rows.size = completed) :
    Skips seen completed before (gap ++ [b]) := by
  refine ⟨h.ended, ?_, h.lead.concat hb⟩
  intro p hp
  rcases List.prefix_concat_iff.1 hp with rfl | hp
  · rw [← List.append_assoc]
    exact ⟨hposition, hrows⟩
  · exact h.stands p hp

/-- The reading starts afresh, in the first line. -/
theorem Numbered.of_start (hended : bs = [] ∨ AtMark seen bs)
    (hstart : readingOf seen bs = Reading.start) : Numbered seen bs := by
  have hcount : bs.count lineFeed = 0 := by
    rw [← lineFeeds_readingOf seen bs, hstart]
    rfl
  refine ⟨?_, .inl ⟨by rw [hstart]; rfl, bs, [], (List.append_nil bs).symm, ?_, ?_⟩⟩
  · intro k r hr
    rw [hstart] at hr
    cases hr
  · exact skips_nil (.inr hended) (by rw [hstart]; rfl) rfl
  · rw [hcount, hstart]
    rfl

namespace Numbered

variable {b : UInt8}

/-- A dropped space changes nothing. -/
theorem dropped (h : Numbered seen bs) (hb : b = space)
    (hread : readingOf seen (bs ++ [b]) = readingOf seen bs) : Numbered seen (bs ++ [b]) := by
  refine ⟨?_, ?_⟩
  · intro k r hr
    rw [hread] at hr
    exact (h.rows hr).concat b
  · rw [hread]
    rcases h.current with ⟨hposition, before, gap, hbs, hskips, hline⟩ | ⟨hposition, hrow⟩
    · subst hbs
      have hskips' := hskips.concat (.inl hb) (by rw [hread]; exact hposition) (by rw [hread])
      exact .inl ⟨hposition, before, gap ++ [b], List.append_assoc _ _ _, hskips', hline⟩
    · exact .inr ⟨hposition, hrow.concat b⟩

/-- An octet that completes no row is skipped, begins the row to come, or goes on with the row at
hand. -/
theorem goesOn (h : Numbered seen bs)
    (hrows : (readingOf seen (bs ++ [b])).rows = (readingOf seen bs).rows)
    (hline : (readingOf seen (bs ++ [b])).line = (readingOf seen bs).line)
    (hposition : (readingOf seen (bs ++ [b])).position = .rowStart ↔
      (readingOf seen bs).position = .rowStart ∧ Reading.isRowEnd b = true) :
    Numbered seen (bs ++ [b]) := by
  refine ⟨?_, ?_⟩
  · intro k r hr
    rw [hrows] at hr
    exact (h.rows hr).concat b
  · rw [hrows, hline]
    rcases h.current with ⟨hstart, before, gap, hbs, hskips, hcount⟩ | ⟨hinside, hrow⟩
    · by_cases hend : Reading.isRowEnd b = true
      · have hb : b = 0x0D ∨ b = 0x0A := by
          rw [Reading.isRowEnd, Bool.or_eq_true, beq_iff_eq, beq_iff_eq] at hend
          exact hend
        have hstart' := hposition.2 ⟨hstart, hend⟩
        subst hbs
        have hskips' := hskips.concat (.inr hb) hstart' (by rw [hrows])
        exact .inl ⟨hstart', before, gap ++ [b], List.append_assoc _ _ _, hskips', hcount⟩
      · have hleaves := mt hposition.1 fun hboth => hend hboth.2
        subst hbs
        exact .inr ⟨hleaves, before, gap, b, List.prefix_refl _, ⟨hskips, hleaves⟩, hcount⟩
    · exact .inr ⟨mt hposition.1 fun hboth => hinside hboth.1, hrow.concat b⟩

/-- Where the row at hand is complete, it has its line as well. -/
theorem rowAt_push (h : Numbered seen bs) {fields : List (List UInt8)} {k : Nat} {r : RawRow}
    (hinside : (readingOf seen bs).position ≠ .rowStart)
    (hr : ((readingOf seen bs).rows.push ⟨(readingOf seen bs).line, fields⟩)[k]? = some r) :
    RowAt seen bs k r.line := by
  rw [Array.getElem?_push] at hr
  split at hr
  · next hk =>
    cases hr
    rw [hk]
    rcases h.current with ⟨hstart, -⟩ | ⟨-, hrow⟩
    · exact absurd hstart hinside
    · exact hrow
  · exact h.rows hr

/-- An octet that ends the row at hand gives the next line to the row to come. -/
theorem ends (h : Numbered seen bs) {fields : List (List UInt8)}
    (hinside : (readingOf seen bs).position ≠ .rowStart)
    (hposition : (readingOf seen (bs ++ [b])).position = .rowStart)
    (hrows : (readingOf seen (bs ++ [b])).rows =
      (readingOf seen bs).rows.push ⟨(readingOf seen bs).line, fields⟩)
    (hline : (readingOf seen (bs ++ [b])).line = (readingOf seen (bs ++ [b])).lineFeeds + 1) :
    Numbered seen (bs ++ [b]) := by
  refine ⟨?_, .inl ⟨hposition, bs ++ [b], [], (List.append_nil _).symm, ?_, ?_⟩⟩
  · intro k r hr
    rw [hrows] at hr
    exact (h.rowAt_push hinside hr).concat b
  · refine skips_nil (.inl ?_) hposition rfl
    rw [List.dropLast_concat, hrows, Array.size_push]
    exact Nat.lt_succ_self _
  · rw [hline, lineFeeds_readingOf, Nat.add_comm]

end Numbered

/-- The lines of all rows are those that the line feeds before them count. -/
theorem numbered (seen : Bool) (bs : List UInt8) : Numbered seen bs := by
  induction bs using List.reverseRecOn with
  | nil => exact .of_start (.inl rfl) (by cases seen <;> rfl)
  | append_singleton bs b ih =>
    by_cases hmark : AtMark seen (bs ++ [b])
    · exact .of_start (.inr hmark) (readingOf_of_atMark hmark)
    · have hread := readingOf_concat hmark
      split at hread
      · obtain ⟨counted, hposition, hrows, hline, -, ⟨hsame, hstart⟩ | ⟨hinside, hend⟩⟩ :=
          (readingOf seen bs).step_cases b
        · rw [hposition] at hstart
          refine ih.goesOn ?_ ?_ ?_
          · rw [hread, hsame.rows, hrows]
          · rw [hread, hsame.line, hline]
          · rw [hread, hstart]
        · rw [hposition] at hinside
          rw [hend] at hread
          have hended : (readingOf seen (bs ++ [b])).rows = (readingOf seen bs).rows.push
              ⟨(readingOf seen bs).line, (counted.field.reverse :: counted.fields).reverse⟩ := by
            rw [hread, ← hrows, ← hline]
            rfl
          exact ih.ends hinside (by rw [hread]; rfl) hended (by rw [hread]; rfl)
      · next hdropped => exact ih.dropped (State.eq_space_of_dropped hdropped) hread

/-- The end of the octets, if it is in view, ends the row at hand. -/
theorem Numbered.rowAt (h : Numbered seen bs) (ended : Bool) {k : Nat} {r : RawRow}
    (hr : (if ended then (readingOf seen bs).finish else readingOf seen bs).rows[k]? = some r) :
    RowAt seen bs k r.line := by
  cases ended with
  | false => exact h.rows hr
  | true =>
    rw [if_pos rfl, Reading.finish] at hr
    split at hr
    · exact h.rows hr
    · next hinside => exact h.rowAt_push hinside hr

theorem exists_rowAt_rawRows (reads : List (List UInt8))
    (hreads : reads.flatten = (sift .fieldStart bs).1) (failure : Option String) (ended : Bool) :
    ∃ seen, ∀ {k r}, (rawRows (content failure reads).1 ended)[k]? = some r →
      RowAt seen bs k r.line := by
  rcases content_eq reads failure with hnil | ⟨seen, hseen⟩
  · refine ⟨false, ?_⟩
    intro k r hr
    rw [hnil] at hr
    cases ended <;> cases hr
  · refine ⟨seen, ?_⟩
    intro k r hr
    rw [hseen, hreads, rawRows, Array.getElem?_toList] at hr
    exact (numbered seen bs).rowAt ended hr

/-- The rows of a table are those behind its header. -/
theorem exists_rowAt_of_ofSource {e : Encoding} {b : BufferedSource} {t : Table}
    (ht : ofSource e b = .ok t) :
    ∃ seen, ∀ {k r}, t.rows[k]? = some r → RowAt seen b.bytes (k + 1) r.line := by
  obtain ⟨reads, hdrain, hreads⟩ := Sieve.drain_eq (show readSize ≠ 0 by decide) (.ofSource b)
  rw [ofSource, hdrain] at ht
  dsimp only at ht
  split at ht
  · cases ht
  · cases ht
    refine ⟨false, ?_⟩
    intro k r hr
    cases hr
  · next header rows hrows =>
    obtain ⟨seen, hlines⟩ := exists_rowAt_rawRows reads hreads
      (Sieve.ofSource b).source.source.failure
      (content (Sieve.ofSource b).source.source.failure reads).2.isNone
    rw [hrows] at hlines
    refine ⟨seen, ?_⟩
    intro k r hr
    cases hnames : header.fields.mapM (decode e) with
    | error fault =>
      rw [hnames] at ht
      cases ht
    | ok names =>
      rw [hnames] at ht
      cases ht
      exact hlines hr

/-- What a table hands out is a row with its line. -/
theorem exists_of_items {t : Table} {k line : Nat} {row : Row}
    (h : t.items[k]? = some (.ok (line, row))) :
    ∃ r, t.rows[k]? = some r ∧ r.line = line ∧ t.decodeRow r = .ok row := by
  rw [items, List.getElem?_append] at h
  split at h
  · rw [List.getElem?_map, Option.map_eq_some_iff] at h
    obtain ⟨r, hr, hrow⟩ := h
    cases hdecode : t.decodeRow r with
    | error fault =>
      rw [hdecode] at hrow
      cases hrow
    | ok row' =>
      rw [hdecode] at hrow
      cases hrow
      exact ⟨r, hr, rfl, hdecode⟩
  · have hmem := List.mem_of_getElem? h
    split at hmem
    · cases List.mem_singleton.1 hmem
    · exact absurd hmem List.not_mem_nil

/-- Cells are at fault only for their encoding. -/
theorem exists_read_of_foldlM_addCell {e : Encoding} {cells : List (Text × List UInt8)} {row : Row}
    {fault : RunFault} (h : cells.foldlM (addCell e) row = .error fault) :
    ∃ f, fault = .read f := by
  induction cells generalizing row with
  | nil => cases h
  | cons c cells ih =>
    rw [List.foldlM_cons] at h
    cases hnext : addCell e row c with
    | ok next =>
      rw [hnext] at h
      exact ih h
    | error fault' =>
      rw [hnext] at h
      cases h
      rw [addCell] at hnext
      split at hnext
      · cases hnext
      · rw [decode] at hnext
        cases hd : e.decode c.2 with
        | ok value =>
          rw [hd] at hnext
          cases hnext
        | error f =>
          rw [hd] at hnext
          cases hnext
          exact ⟨_, rfl⟩

/-- A table is malformed behind its rows only. -/
theorem failure_of_items {t : Table} {line : Nat} {shown : Text} {fault : EntryFault}
    (h : .error (.malformed line shown fault) ∈ t.items) :
    ∃ reason, t.failure = some reason ∧ line = 0 ∧ shown = [] ∧ fault = .table reason := by
  rw [items, List.mem_append, List.mem_map] at h
  rcases h with ⟨r, -, hr⟩ | h
  · cases hdecode : t.decodeRow r with
    | ok row =>
      rw [hdecode] at hr
      cases hr
    | error f =>
      rw [hdecode] at hr
      cases hr
      obtain ⟨f, hf⟩ := exists_read_of_foldlM_addCell hdecode
      cases hf
  · split at h
    · next reason hfailure =>
      cases List.mem_singleton.1 h
      exact ⟨reason, hfailure, rfl, rfl, rfl⟩
    · exact absurd h List.not_mem_nil

end ReplayLog.Table

namespace ReplayLog

theorem Cut.ok_mem_of_readable {ε α : Type} {items : List (Except ε α)} {a : α}
    (h : a ∈ (readable items).1) : .ok a ∈ items := by
  induction items with
  | nil => cases h
  | cons item items ih =>
    cases item with
    | error fault => cases h
    | ok a' =>
      rcases List.mem_cons.1 h with rfl | h
      · exact List.mem_cons_self
      · exact List.mem_cons_of_mem _ (ih h)

namespace Settings

open Table

/-- A run over a table is malformed at a row that is at fault, or where the table breaks off. -/
theorem exists_row_of_run {s : Settings} {b : BufferedSource} {t : Table}
    (ht : Table.ofSource s.encoding b = .ok t) (hs : s.dialect = .serviceExport) {w : Writer}
    {line : Nat} {shown : Text} {fault : EntryFault}
    (h : (s.run b w).1 = .error (.fault (.malformed line shown fault))) :
    (∃ reason, t.failure = some reason ∧ line = 0 ∧ shown = [] ∧ fault = .table reason) ∨
      ∃ (k : Nat) (row : Row), t.items[k]? = some (.ok (line, row)) ∧ shown = row.render ∧
        ServiceExport.convert s.zone row = .error (.fault fault) := by
  have htaken := Progress.malformed_of_close h
  rw [takeSource, hs, ht] at htaken
  dsimp only at htaken
  rw [Cut.ofTable_eq_rowFeed] at htaken
  by_cases hending : (Cut.rowFeed (.ok t.items)).ending = .failed (.malformed line shown fault)
  · left
    rw [Cut.rowFeed] at hending
    dsimp only at hending
    split at hending
    · next f hf =>
      cases hending
      exact failure_of_items (Cut.mem_of_readable hf)
    · cases hending
  · right
    obtain ⟨a, ha, hline, hshown, hconvert⟩ := Progress.exists_malformed_of_takeFeed hending htaken
    obtain ⟨⟨line', row⟩, hitem, rfl⟩ := List.mem_map.1 ha
    obtain ⟨k, hk⟩ := List.mem_iff_getElem?.1 (Cut.ok_mem_of_readable hitem)
    cases hline
    exact ⟨k, row, hk, hshown.symm, hconvert⟩

/-- Every row of a table comes with the number of the line behind the end of the row before it, and
a run that stops at a row reports that number. It is the line of the first octet of the row exactly
if no line feed is skipped before it. -/
theorem run_row_lines (s : Settings) {b : BufferedSource} {t : Table}
    (ht : Table.ofSource s.encoding b = .ok t) :
    (∃ seen, ∀ {k line : Nat} {row : Row}, t.items[k]? = some (.ok (line, row)) →
      ∃ before gap first, before ++ gap ++ [first] <+: b.bytes ∧
        Opens seen (k + 1) before gap first ∧ line = 1 + before.count lineFeed ∧
        (line = 1 + (before ++ gap).count lineFeed ↔ lineFeed ∉ gap)) ∧
    (s.dialect = .serviceExport → ∀ {w line shown fault},
      (s.run b w).1 = .error (.fault (.malformed line shown fault)) →
        (∃ reason, t.failure = some reason ∧ line = 0 ∧ shown = [] ∧ fault = .table reason) ∨
          ∃ (k : Nat) (row : Row), t.items[k]? = some (.ok (line, row)) ∧ shown = row.render ∧
            ServiceExport.convert s.zone row = .error (.fault fault)) := by
  obtain ⟨seen, hlines⟩ := exists_rowAt_of_ofSource ht
  refine ⟨⟨seen, ?_⟩, fun hs => exists_row_of_run ht hs⟩
  intro k line row hitem
  obtain ⟨r, hr, rfl, -⟩ := exists_of_items hitem
  obtain ⟨before, gap, first, hfront, hopens, hline⟩ := hlines hr
  refine ⟨before, gap, first, hfront, hopens, hline, ?_⟩
  rw [hline, List.count_append, ← List.count_eq_zero]
  omega

/-- A table whose first statement is blank and takes two lines, and whose next row is short. -/
def shortExport : BufferedSource :=
  .ofSource 64 (.ofReads [Text.toUtf8 "SQL command\n\"\n\"\na\n".toList] none)

/-- The row is found on the fourth line, and that line is reported. -/
theorem run_row_lines_shortExport :
    let s : Settings := { dialect := .serviceExport, zone := .fixed 0 }
    let row : Row := [("SQL command".toList, "a".toList)]
    let fault := EntryFault.missingField "execute time".toList
    ∃ t, Table.ofSource s.encoding shortExport = .ok t ∧ t.items[1]? = some (.ok (4, row)) ∧
      (∃ seen before gap first, before ++ gap ++ [first] <+: shortExport.bytes ∧
        Opens seen 2 before gap first ∧ before.count lineFeed = 3) ∧
      (s.run shortExport ⟨{}, 1, 0⟩).1 = .error (.fault (.malformed 4 row.render fault)) ∧
      ∃ (k : Nat) (row' : Row), t.items[k]? = some (.ok (4, row')) ∧ row.render = row'.render := by
  intro s row fault
  have hitems : (Table.ofSource s.encoding shortExport).map
      (fun t => t.items[1]?.bind Except.toOption) = .ok (some (4, row)) := by
    decide +kernel
  have hrun : (s.run shortExport ⟨{}, 1, 0⟩).1 =
      .error (.fault (.malformed 4 row.render fault)) := by
    decide +kernel
  cases ht : Table.ofSource s.encoding shortExport with
  | error fault =>
    rw [ht] at hitems
    cases hitems
  | ok t =>
    rw [ht] at hitems
    have hitem : t.items[1]? = some (.ok (4, row)) := by
      obtain ⟨item, hitem, hok⟩ := Option.bind_eq_some_iff.1 (Except.ok.inj hitems)
      cases item with
      | error fault => cases hok
      | ok item =>
        cases hok
        exact hitem
    obtain ⟨⟨seen, hlines⟩, hreported⟩ := s.run_row_lines ht
    obtain ⟨before, gap, first, hfront, hopens, hline, -⟩ := hlines hitem
    refine ⟨t, rfl, hitem, ⟨seen, before, gap, first, hfront, hopens, by omega⟩, hrun, ?_⟩
    rcases hreported rfl hrun with ⟨reason, -, hzero, -⟩ | ⟨k, row', hk, hshown, -⟩
    · cases hzero
    · exact ⟨k, row', hk, hshown⟩

end Settings

namespace Table

open LeadingSpace

def itemLines (bs : List UInt8) : Option (List (Option Nat)) :=
  (ofSource .strict (.ofSource 64 (.ofReads [bs] none))).toOption.map fun t =>
    t.items.map fun item => item.toOption.map Prod.fst

/-- Behind a header that ends in a carriage return and a line feed, or behind a blank line, a row is
given the line before its own. -/
theorem row_line_quotedRow :
    itemLines (quotedRow "\r\n") = some [some 1] ∧
      Opens true 1 (Text.toUtf8 "a,b\r".toList) [lineFeed] quote ∧
      1 + (Text.toUtf8 "a,b\r\n".toList).count lineFeed = 2 ∧
      itemLines (quotedRow "\n\n") = some [some 2] ∧
      Opens true 1 (Text.toUtf8 "a,b\n".toList) [lineFeed] quote ∧
      1 + (Text.toUtf8 "a,b\n\n".toList).count lineFeed = 3 := by
  have hopens (before : List UInt8) (hended : (readingOf true before.dropLast).rows.size < 1)
      (hbehind : (readingOf true before).position = .rowStart ∧
        (readingOf true before).rows.size = 1)
      (hskipped : (readingOf true (before ++ [lineFeed])).position = .rowStart ∧
        (readingOf true (before ++ [lineFeed])).rows.size = 1)
      (hleaves : (readingOf true (before ++ [lineFeed] ++ [quote])).position ≠
        .rowStart) : Opens true 1 before [lineFeed] quote := by
    have hskips := skips_nil (.inl hended) hbehind.1 hbehind.2
    rw [← List.append_nil before] at hskipped
    exact ⟨hskips.concat (.inr (.inr rfl)) hskipped.1 hskipped.2, hleaves⟩
  refine ⟨by decide +kernel, ?_, by decide +kernel, by decide +kernel, ?_, by decide +kernel⟩
  · exact hopens _ (by decide +kernel) (by decide +kernel) (by decide +kernel) (by decide +kernel)
  · exact hopens _ (by decide +kernel) (by decide +kernel) (by decide +kernel) (by decide +kernel)

end Table
end ReplayLog
