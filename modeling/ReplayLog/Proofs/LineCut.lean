import Mathlib.Data.List.Basic
import Mathlib.Data.List.TakeWhile
import ReplayLog.Entry.Feed
import ReplayLog.Proofs.Trimming

/-! # Cutting all lines at once

The feeds of the dialects are described from the whole list of lines or rows: entries of several
lines are cut at the boundary lines, and reading stops at the first line that cannot be read or that
carries its entry over a limit. Gathering line by line gives the same feeds. -/
namespace ReplayLog
namespace Cut

/-- What comes before the first failure, and that failure. -/
def readable {ε α : Type} : List (Except ε α) → List α × Option ε
  | [] => ([], none)
  | .error fault :: _ => ([], some fault)
  | .ok a :: items => (a :: (readable items).1, (readable items).2)

/-- Each boundary line with the lines behind it up to the next boundary line. -/
def entries (opens : Text → Bool) (number : Nat) : List Text → List Entry
  | [] => []
  | line :: lines =>
    if opens line then
      ⟨number, (line :: lines.takeWhile (!opens ·)).toArray⟩ :: entries opens (number + 1) lines
    else entries opens (number + 1) lines

/-- The limit that the lines of an entry exceed; their number comes before their size. -/
def limit? (rule : SegmentRule) (e : Entry) : Option Limit :=
  if rule.maxLines < e.lineCount then some (.lines rule.maxLines)
  else if rule.maxBytes < e.content.byteSize then some (.bytes rule.maxBytes)
  else none

/-- The limit found on an open entry is that of its lines. -/
theorem limit?_toEntry (rule : SegmentRule) (e : OpenEntry) :
    limit? rule e.toEntry = Segmenter.exceeded? rule e := by
  rw [limit?, Segmenter.exceeded?, e.bytes_eq]
  rfl

/-- The fault of the last of the lines, if it continues an entry and carries it over a limit. -/
def excess? (rule : SegmentRule) (opens : Text → Bool) (lines : List Text) : Option RunFault :=
  (entries opens 1 lines).getLast?.bind fun e =>
    if 1 < e.lineCount then (limit? rule e).map (.tooLarge e.startLine) else none

/-- The number of lines before the first one at fault for its size, and its fault. -/
def firstExcess? (rule : SegmentRule) (opens : Text → Bool) (lines : List Text) :
    Option (Nat × RunFault) :=
  (List.range lines.length).findSome? fun n =>
    (excess? rule opens (lines.take (n + 1))).map (n, ·)

def arrival (e : Entry) : Arrival Text := ⟨e.startLine + e.lineCount, e.startLine, e.content⟩

/-- The feed of lines with a failure or nothing behind them. Only an entry with a boundary line
behind it is complete, and at the end the last one if the rule says so. -/
def feed (rule : SegmentRule) (opens : Text → Bool) (lines : List Text)
    (failure : Option ReadFault) : Feed Text :=
  match firstExcess? rule opens lines, failure with
  | some (n, fault), _ =>
    ⟨(entries opens 1 (lines.take n)).dropLast.map arrival, n + 1, .failed fault⟩
  | none, some fault =>
    ⟨(entries opens 1 lines).dropLast.map arrival, lines.length, .failed (.read fault)⟩
  | none, none =>
    let complete := (entries opens 1 lines).dropLast.map arrival
    let last := (entries opens 1 lines).getLast?
    let preamble := (lines.takeWhile (!opens ·)).length
    match rule.trailing with
    | .drop => ⟨complete, lines.length, .finished preamble last⟩
    | .emit =>
      ⟨complete ++ last.toList.map fun e => ⟨lines.length, e.startLine, e.content⟩, lines.length,
        .finished preamble none⟩

section entries

variable {opens : Text → Bool}

theorem entries_eq_nil_iff {n : Nat} {lines : List Text} :
    entries opens n lines = [] ↔ ∀ line ∈ lines, opens line = false := by
  induction lines generalizing n with
  | nil => simp [entries]
  | cons line lines ih => cases hl : opens line <;> simp [entries, hl, ih]

theorem exists_of_entries_ne_nil {n : Nat} {lines : List Text} (h : entries opens n lines ≠ []) :
    ∃ line ∈ lines, opens line = true := by
  simpa using mt entries_eq_nil_iff.2 h

/-- Behind a boundary line another line does not lengthen the preamble. -/
theorem takeWhile_concat {line : Text} {lines : List Text}
    (h : opens line = true ∨ ∃ x ∈ lines, opens x = true) :
    (lines ++ [line]).takeWhile (!opens ·) = lines.takeWhile (!opens ·) := by
  rw [List.takeWhile_append]
  split
  · next hall =>
    have hself := (List.takeWhile_prefix (!opens ·)).eq_of_length hall
    rcases h with hl | ⟨x, hx, ho⟩
    · simp [hself, hl]
    · rw [← hself] at hx
      have hx' := List.mem_takeWhile_imp hx
      simp [ho] at hx'
  · rfl

theorem entries_concat_of_opens {line : Text} (hl : opens line = true) (n : Nat)
    (lines : List Text) :
    entries opens n (lines ++ [line]) =
      entries opens n lines ++ [⟨n + lines.length, #[line]⟩] := by
  induction lines generalizing n with
  | nil => simp [entries, hl]
  | cons first lines ih =>
    have htake : (lines ++ [line]).takeWhile (!opens ·) = lines.takeWhile (!opens ·) :=
      takeWhile_concat (.inl hl)
    have hn : n + 1 + lines.length = n + (lines.length + 1) := by omega
    cases hf : opens first <;> simp [entries, hf, ih, htake, hn]

/-- A line that is no boundary goes to the end of the last entry. -/
theorem entries_concat_of_not_opens {line : Text} (hl : opens line = false) (n : Nat)
    (lines : List Text) :
    entries opens n (lines ++ [line]) =
      (entries opens n lines).dropLast ++
        (entries opens n lines).getLast?.toList.map fun e => ⟨e.startLine, e.lines.push line⟩ := by
  induction lines generalizing n with
  | nil => simp [entries, hl]
  | cons first lines ih =>
    cases hf : opens first with
    | false => simp [entries, hf, ih]
    | true =>
      by_cases hne : entries opens (n + 1) lines = []
      · have hall : ∀ x ∈ lines, (!opens x) = true := by
          simpa using entries_eq_nil_iff.1 hne
        have hnext : entries opens (n + 1) (lines ++ [line]) = [] := by simp [ih, hne]
        rw [List.cons_append, entries, if_pos hf, hnext, entries, if_pos hf, hne,
          List.takeWhile_append_of_pos hall, List.takeWhile_eq_self_iff.2 hall]
        simp [hl]
      · have htake : (lines ++ [line]).takeWhile (!opens ·) = lines.takeWhile (!opens ·) :=
          takeWhile_concat (.inr (exists_of_entries_ne_nil hne))
        rw [List.cons_append, entries, if_pos hf, ih, entries, if_pos hf, htake,
          List.dropLast_cons_of_ne_nil hne, List.getLast?_cons_of_ne_nil hne]
        rfl

/-- The last entry reaches the last line. -/
theorem end_of_getLast? {n : Nat} {lines : List Text} {e : Entry}
    (h : (entries opens n lines).getLast? = some e) :
    e.startLine + e.lineCount = n + lines.length := by
  induction lines generalizing n with
  | nil => simp [entries] at h
  | cons line lines ih =>
    rw [List.length_cons]
    cases hl : opens line with
    | false =>
      rw [entries, hl] at h
      have := ih h
      omega
    | true =>
      rw [entries, if_pos hl] at h
      by_cases hne : entries opens (n + 1) lines = []
      · have hall : ∀ x ∈ lines, (!opens x) = true := by
          simpa using entries_eq_nil_iff.1 hne
        rw [hne, List.takeWhile_eq_self_iff.2 hall] at h
        cases h
        simp [Entry.lineCount]
      · rw [List.getLast?_cons_of_ne_nil hne] at h
        have := ih h
        omega

end entries

section firstExcess

variable {rule : SegmentRule} {opens : Text → Bool}

theorem firstExcess?_concat (lines : List Text) (line : Text) :
    firstExcess? rule opens (lines ++ [line]) = (firstExcess? rule opens lines).or
      ((excess? rule opens (lines ++ [line])).map (lines.length, ·)) := by
  have hbefore : (List.range lines.length).findSome? (fun n =>
      (excess? rule opens ((lines ++ [line]).take (n + 1))).map (n, ·)) =
        firstExcess? rule opens lines := by
    rw [firstExcess?, ← List.head?_filterMap, ← List.head?_filterMap]
    congr 1
    apply List.filterMap_congr
    intro n hn
    rw [List.take_append_of_le_length]
    exact List.mem_range.1 hn
  have hlast : (lines ++ [line]).take (lines.length + 1) = lines ++ [line] :=
    List.take_of_length_le (by simp)
  rw [firstExcess?, List.length_append, List.length_singleton, List.range_succ,
    List.findSome?_append, hbefore]
  simp [hlast]

theorem firstExcess?_append {lines : List Text} {found : Nat × RunFault}
    (h : firstExcess? rule opens lines = some found) (more : List Text) :
    firstExcess? rule opens (lines ++ more) = some found := by
  induction more generalizing lines with
  | nil => rw [List.append_nil, h]
  | cons line more ih =>
    have hline : firstExcess? rule opens (lines ++ [line]) = some found := by
      rw [firstExcess?_concat, h, Option.some_or]
    simpa using ih hline

end firstExcess

/-- The state of gathering is what the cut says of the lines so far, none of them over a limit. -/
structure Reflects (opens : Text → Bool) (arrived : List (Arrival Text)) (s : Segmenter)
    (lines : List Text) : Prop where
  boundary : s.rule.boundary = .marked opens
  linesTaken : s.linesTaken = lines.length
  preamble : s.preamble = (lines.takeWhile (!opens ·)).length
  current : s.current.map (·.toEntry) = (entries opens 1 lines).getLast?
  arrived : arrived.reverse = (entries opens 1 lines).dropLast.map arrival
  withinLimits : firstExcess? s.rule opens lines = none

namespace Reflects

variable {opens : Text → Bool} {arrived : List (Arrival Text)} {s : Segmenter} {lines : List Text}

theorem start {rule : SegmentRule} (h : rule.boundary = .marked opens) :
    Reflects opens [] (.start rule) [] :=
  ⟨h, rfl, rfl, rfl, rfl, rfl⟩

theorem getLast?_of_some (h : Reflects opens arrived s lines) {e : OpenEntry}
    (hc : s.current = some e) : (entries opens 1 lines).getLast? = some e.toEntry := by
  rw [← h.current, hc]
  rfl

/-- With a boundary line behind it the open entry arrives last. -/
theorem arrivals_of_some (h : Reflects opens arrived s lines) {e : OpenEntry}
    (hc : s.current = some e) :
    (⟨s.linesTaken + 1, e.startLine, e.content⟩ :: arrived).reverse =
      (entries opens 1 lines).map arrival := by
  have hend := end_of_getLast? (h.getLast?_of_some hc)
  obtain ⟨front, hfront⟩ := List.getLast?_eq_some_iff.1 (h.getLast?_of_some hc)
  have harrival : arrival e.toEntry = ⟨s.linesTaken + 1, e.startLine, e.content⟩ := by
    rw [arrival, hend, h.linesTaken, Nat.add_comm]
  rw [List.reverse_cons, h.arrived, hfront]
  simp [harrival]

theorem entries_of_none (h : Reflects opens arrived s lines) (hc : s.current = none) :
    entries opens 1 lines = [] := by
  have hlast := h.current
  rw [hc] at hlast
  exact List.getLast?_eq_none_iff.1 hlast.symm

theorem excess?_concat_of_opens {rule : SegmentRule} {line : Text} (hl : opens line = true) :
    excess? rule opens (lines ++ [line]) = none := by
  simp [excess?, entries_concat_of_opens hl, Entry.lineCount]

/-- A boundary line completes the open entry, if there is one, and opens another one. -/
theorem opening (h : Reflects opens arrived s lines) {line : Text} (hl : opens line = true)
    {arrived' : List (Arrival Text)}
    (ha : arrived'.reverse = (entries opens 1 lines).map arrival) :
    Reflects opens arrived'
      ⟨s.rule, s.linesTaken + 1, s.preamble, some (.ofLine (s.linesTaken + 1) line)⟩
      (lines ++ [line]) where
  boundary := h.boundary
  linesTaken := by simp [h.linesTaken]
  preamble := by rw [takeWhile_concat (.inl hl), ← h.preamble]
  current := by
    rw [entries_concat_of_opens hl, List.getLast?_concat, h.linesTaken, Nat.add_comm]
    rfl
  arrived := by rw [entries_concat_of_opens hl, List.dropLast_concat, ha]
  withinLimits := by
    rw [firstExcess?_concat, h.withinLimits, excess?_concat_of_opens hl]
    rfl

/-- A line before the first boundary line lengthens the preamble. -/
theorem before (h : Reflects opens arrived s lines) {line : Text} (hl : opens line = false)
    (hc : s.current = none) :
    Reflects opens arrived ⟨s.rule, s.linesTaken + 1, s.preamble + 1, none⟩ (lines ++ [line]) := by
  have hnil := h.entries_of_none hc
  have hnext : entries opens 1 (lines ++ [line]) = [] := by
    simp [entries_concat_of_not_opens hl, hnil]
  have hall : ∀ x ∈ lines, (!opens x) = true := by simpa using entries_eq_nil_iff.1 hnil
  refine ⟨h.boundary, by simp [h.linesTaken], ?_, by rw [hnext]; rfl, ?_, ?_⟩
  · rw [h.preamble, List.takeWhile_eq_self_iff.2 hall, List.takeWhile_eq_self_iff.2]
    · rw [List.length_append, List.length_singleton]
    · simpa [hl, or_imp, forall_and] using hall
  · rw [h.arrived, hnil, hnext]
  · rw [firstExcess?_concat, h.withinLimits, excess?, hnext]
    rfl

theorem excess?_concat (h : Reflects opens arrived s lines) {line : Text} (hl : opens line = false)
    {e : OpenEntry} (hc : s.current = some e) :
    excess? s.rule opens (lines ++ [line]) =
      (Segmenter.exceeded? s.rule (e.push line)).map (.tooLarge e.startLine) := by
  have hcount : 1 < (e.push line).lineCount := by
    have := e.lines_pos
    simp only [OpenEntry.push, Entry.lineCount, Array.size_push]
    omega
  rw [← limit?_toEntry, excess?, entries_concat_of_not_opens hl, h.getLast?_of_some hc]
  simp only [Option.toList_some, List.map_cons, List.map_nil,
    List.getLast?_concat, Option.bind_some]
  exact if_pos hcount

/-- A line behind a boundary line lengthens the open entry. -/
theorem continuing (h : Reflects opens arrived s lines) {line : Text} (hl : opens line = false)
    {e : OpenEntry} (hc : s.current = some e)
    (he : Segmenter.exceeded? s.rule (e.push line) = none) :
    Reflects opens arrived ⟨s.rule, s.linesTaken + 1, s.preamble, some (e.push line)⟩
      (lines ++ [line]) := by
  have hlast := h.getLast?_of_some hc
  have hne : entries opens 1 lines ≠ [] := by
    intro hnil
    simp [hnil] at hlast
  refine ⟨h.boundary, by simp [h.linesTaken], ?_, ?_, ?_, ?_⟩
  · rw [takeWhile_concat (.inr (exists_of_entries_ne_nil hne)), ← h.preamble]
  · rw [entries_concat_of_not_opens hl, hlast]
    simp [OpenEntry.push]
  · rw [entries_concat_of_not_opens hl, hlast, h.arrived]
    simp
  · rw [firstExcess?_concat, h.withinLimits, h.excess?_concat hl hc, he]
    rfl

theorem closeEntries_eq (h : Reflects opens arrived s lines) :
    Feed.closeEntries arrived s = feed s.rule opens lines none := by
  obtain ⟨⟨boundary, trailing, maxLines, maxBytes⟩, taken, preamble, current⟩ := s
  have hwithin := h.withinLimits
  have htaken := h.linesTaken
  have hpre := h.preamble
  have harr := h.arrived
  have hcur := h.current
  simp only at hwithin htaken hpre hcur
  subst htaken hpre
  simp only [Feed.closeEntries, feed, hwithin]
  cases current <;> cases trailing <;>
    simp [Segmenter.flush, Feed.arrivalOf, harr, ← hcur]

/-- The feed stops at a line that carries the open entry over a limit, whatever is behind it. -/
theorem feed_of_exceeded (h : Reflects opens arrived s lines) {line : Text}
    (hl : opens line = false) {e : OpenEntry} (hc : s.current = some e) {limit : Limit}
    (he : Segmenter.exceeded? s.rule (e.push line) = some limit) (more : List Text)
    (failure : Option ReadFault) :
    feed s.rule opens (lines ++ [line] ++ more) failure =
      ⟨arrived.reverse, s.linesTaken + 1, .failed (.tooLarge e.startLine limit)⟩ := by
  have hfirst : firstExcess? s.rule opens (lines ++ [line]) =
      some (lines.length, .tooLarge e.startLine limit) := by
    rw [firstExcess?_concat, h.withinLimits, h.excess?_concat hl hc, he]
    rfl
  simp only [feed, firstExcess?_append hfirst]
  simp [h.arrived, h.linesTaken]

end Reflects

/-- From a state that reflects the lines before the items, what is gathered is the feed of all
lines. -/
theorem gatherFrom_eq_feed {opens : Text → Bool} {arrived : List (Arrival Text)} {s : Segmenter}
    {lines : List Text} (h : Reflects opens arrived s lines)
    (items : List (Except ReadFault Text)) :
    Feed.gatherFrom arrived s items =
      feed s.rule opens (lines ++ (readable items).1.map Text.trim) (readable items).2 := by
  induction items generalizing arrived s lines with
  | nil =>
    rw [Feed.gatherFrom, h.closeEntries_eq]
    simp [readable]
  | cons item items ih =>
    cases item with
    | error fault =>
      simp [readable, Feed.gatherFrom, feed, h.withinLimits, h.arrived, h.linesTaken]
    | ok line =>
      have hreadable : lines ++ (readable (.ok line :: items)).1.map Text.trim =
          (lines ++ [line.trim]) ++ (readable items).1.map Text.trim := by
        simp [readable]
      rw [hreadable, Feed.gatherFrom]
      cases hl : opens line.trim with
      | true =>
        rw [Segmenter.addLine_of_opens h.boundary hl]
        cases hc : s.current with
        | none => exact ih (h.opening hl (by simp [h.arrived, h.entries_of_none hc]))
        | some e => exact ih (h.opening hl (h.arrivals_of_some hc))
      | false =>
        cases hc : s.current with
        | none =>
          rw [Segmenter.addLine_of_none h.boundary hl hc]
          exact ih (h.before hl hc)
        | some e =>
          rw [Segmenter.addLine_of_some h.boundary hl hc]
          cases he : Segmenter.exceeded? s.rule (e.push line.trim) with
          | none => exact ih (h.continuing hl hc he)
          | some limit => exact (h.feed_of_exceeded hl hc he _ _).symm

/-- Gathering lines into entries is cutting the readable lines. -/
theorem ofEntries_eq_feed {rule : SegmentRule} {opens : Text → Bool}
    (h : rule.boundary = .marked opens) (items : List (Except ReadFault Text)) :
    Feed.ofEntries rule items =
      feed rule opens ((readable items).1.map Text.trim) (readable items).2 := by
  exact gatherFrom_eq_feed (Reflects.start h) items

def lineFeed (lines : List Text) (failure : Option ReadFault) : Feed Text where
  arrivals := ((lines.zipIdx 1).filter (·.1 ≠ [])).map fun (line, number) => ⟨number, number, line⟩
  linesRead := lines.length
  ending := match failure with
    | some fault => .failed (.read fault)
    | none => .finished 0 none

theorem lineByLineFrom_eq (arrived : List (Arrival Text)) (number : Nat)
    (items : List (Except ReadFault Text)) :
    Feed.lineByLineFrom arrived number items =
      let lines := (readable items).1.map Text.trim
      ⟨arrived.reverse ++ ((lines.zipIdx (number + 1)).filter (·.1 ≠ [])).map
          fun (line, n) => ⟨n, n, line⟩,
        number + lines.length, (lineFeed lines (readable items).2).ending⟩ := by
  induction items generalizing arrived number with
  | nil => simp [Feed.lineByLineFrom, readable, lineFeed]
  | cons item items ih =>
    cases item with
    | error fault => simp [Feed.lineByLineFrom, readable, lineFeed]
    | ok line =>
      rw [Feed.lineByLineFrom]
      have hn (k : Nat) : number + 1 + k = number + (k + 1) := by omega
      cases hb : line.isBlankText with
      | true =>
        have hnil : line.trim = [] := Text.trim_eq_nil_iff.2 hb
        simp [ih, readable, hnil, hn, lineFeed]
      | false =>
        have hne : line.trim ≠ [] := by
          intro hnil
          simp [Text.trim_eq_nil_iff.1 hnil] at hb
        simp [ih, readable, hne, hn, lineFeed]

/-- Reading line by line is picking the lines that are not blank. -/
theorem ofLines_eq_lineFeed (items : List (Except ReadFault Text)) :
    Feed.ofLines items = lineFeed ((readable items).1.map Text.trim) (readable items).2 := by
  rw [Feed.ofLines, lineByLineFrom_eq]
  simp [lineFeed]

def rowFeed : Except RunFault (List (Except RunFault (Nat × Row))) → Feed Row
  | .error fault => ⟨[], 0, .failed fault⟩
  | .ok items =>
    ⟨(readable items).1.map fun (line, row) => ⟨line, line, row⟩,
      ((readable items).1.getLast?.map Prod.fst).getD 0,
      match (readable items).2 with
        | some fault => .failed fault
        | none => .finished 0 none⟩

theorem rowByRowFrom_eq (arrived : List (Arrival Row)) (number : Nat)
    (items : List (Except RunFault (Nat × Row))) :
    Feed.rowByRowFrom arrived number items =
      ⟨arrived.reverse ++ (rowFeed (.ok items)).arrivals,
        ((readable items).1.getLast?.map Prod.fst).getD number, (rowFeed (.ok items)).ending⟩ := by
  induction items generalizing arrived number with
  | nil => simp [Feed.rowByRowFrom, readable, rowFeed]
  | cons item items ih =>
    cases item with
    | error fault => simp [Feed.rowByRowFrom, readable, rowFeed]
    | ok item =>
      obtain ⟨line, row⟩ := item
      rw [Feed.rowByRowFrom, ih]
      cases hr : (readable items).1 <;> simp [readable, rowFeed, hr, List.getLast?_cons]

theorem ofTable_eq_rowFeed (table : Except RunFault Table) :
    Feed.ofTable table = rowFeed (table.map Table.items) := by
  cases table with
  | error fault => rfl
  | ok t =>
    rw [Feed.ofTable, rowByRowFrom_eq]
    rfl

theorem readable_map_ok {ε α : Type} (as : List α) :
    readable (as.map (.ok : α → Except ε α)) = (as, none) := by
  induction as with
  | nil => rfl
  | cons a as ih => rw [List.map_cons, readable, ih]

/-- Trimmed lines that are not empty are fed as they are. -/
theorem ofLines_map_ok {lines : List Text} (h : ∀ line ∈ lines, line ≠ [] ∧ line.trim = line) :
    (Feed.ofLines (lines.map .ok)).arrivals.map Arrival.entry = lines ∧
      (Feed.ofLines (lines.map .ok)).ending = .finished 0 none := by
  have htrim : lines.map Text.trim = lines := by
    conv_rhs => rw [← List.map_id lines]
    exact List.map_congr_left fun line hl => (h line hl).2
  have hkept : (lines.zipIdx 1).filter (·.1 ≠ []) = lines.zipIdx 1 := by
    rw [List.filter_eq_self]
    intro numbered hl
    simpa using (h _ (List.fst_mem_of_mem_zipIdx hl)).1
  rw [ofLines_eq_lineFeed, readable_map_ok, htrim, lineFeed, hkept]
  refine ⟨?_, rfl⟩
  rw [List.map_map]
  exact List.zipIdx_map_fst 1 lines

theorem ofTable_map_ok {t : Table} {rows : List (Nat × Row)} (h : t.items = rows.map .ok) :
    (Feed.ofTable (.ok t)).arrivals.map Arrival.entry = rows.map Prod.snd ∧
      (Feed.ofTable (.ok t)).ending = .finished 0 none := by
  have hitems : Except.map Table.items (.ok t : Except RunFault Table) = .ok (rows.map .ok) := by
    rw [← h]
    rfl
  rw [ofTable_eq_rowFeed, hitems, rowFeed, readable_map_ok]
  refine ⟨?_, rfl⟩
  rw [List.map_map]
  rfl

end Cut
end ReplayLog
