import ReplayLog.Proofs.GrowingSource
import ReplayLog.Proofs.ReadingFaults

/-! # Lines behind lines

Lines that begin with a boundary line are cut in the same way whatever lines stand before them, but
every entry starts so many lines further down. So the feed of all the lines is that of the lines in
front, if its last entry counts as complete, with the other feed behind it. -/
namespace ReplayLog

namespace RunFault

/-- The fault of an entry with so many lines more before it. -/
def behind (n : Nat) : RunFault → RunFault
  | malformed line entry fault => malformed (line + n) entry fault
  | tooLarge line limit => tooLarge (line + n) limit
  | read fault => read fault
  | write reason => write reason

end RunFault

def Entry.behind (n : Nat) (e : Entry) : Entry := ⟨e.startLine + n, e.lines⟩

def Ending.preamble : Ending → Nat
  | failed _ => 0
  | finished preamble _ => preamble

namespace Feed

variable {α : Type}

def starts (feed : Feed α) : List (Nat × α) := feed.arrivals.map fun a => (a.startLine, a.entry)

def startBehind (n : Nat) (start : Nat × α) : Nat × α := (start.1 + n, start.2)

/-- The third feed is the first one with the second one behind it. -/
structure Joins (f g h : Feed α) : Prop where
  starts : h.starts = f.starts ++ g.starts.map (startBehind f.linesRead)
  fault? : h.ending.fault? = g.ending.fault?.map (RunFault.behind f.linesRead)
  linesRead : h.linesRead = f.linesRead + g.linesRead
  preamble : h.ending.fault? = none → h.ending.preamble = f.ending.preamble + g.ending.preamble

end Feed

namespace Cut

variable {rule : SegmentRule} {opens : Text → Bool} {lines more : List Text}

/-- The first line, if there is one, is a boundary line. -/
def Begins (opens : Text → Bool) (lines : List Text) : Prop :=
  ∀ line ∈ lines.head?, opens line = true

theorem Begins.of_concat {line : Text} (h : Begins opens (more ++ [line])) : Begins opens more := by
  cases more with
  | nil =>
    intro line hline
    cases hline
  | cons first more => exact h

theorem Begins.take (h : Begins opens more) (n : Nat) : Begins opens (more.take n) := by
  cases more with
  | nil =>
    rw [List.take_nil]
    exact h
  | cons first more =>
    cases n with
    | zero =>
      intro line hline
      cases hline
    | succ n => exact h

theorem Begins.entries_ne_nil (h : Begins opens more) (hne : more ≠ []) (n : Nat) :
    entries opens n more ≠ [] := by
  obtain ⟨first, more, rfl⟩ := List.exists_cons_of_ne_nil hne
  rw [entries, if_pos (h first rfl)]
  exact List.cons_ne_nil _ _

theorem Begins.takeWhile_eq_nil (h : Begins opens more) : more.takeWhile (!opens ·) = [] := by
  cases more with
  | nil => rfl
  | cons first more => rw [List.takeWhile_cons_of_neg (by simp [h first rfl])]

theorem takeWhile_append_of_begins (h : Begins opens more) :
    (lines ++ more).takeWhile (!opens ·) = lines.takeWhile (!opens ·) := by
  rw [List.takeWhile_append, h.takeWhile_eq_nil, List.append_nil]
  split
  · next hall => exact ((List.takeWhile_prefix _).eq_of_length hall).symm
  · rfl

theorem entries_behind (k n : Nat) (lines : List Text) :
    entries opens (k + n) lines = (entries opens k lines).map (Entry.behind n) := by
  induction lines generalizing k with
  | nil => rfl
  | cons line lines ih =>
    rw [entries, entries, Nat.add_right_comm, ih]
    split <;> rfl

/-- Lines that begin an entry are cut by themselves. -/
theorem entries_append (h : Begins opens more) (k : Nat) :
    entries opens k (lines ++ more) =
      entries opens k lines ++ (entries opens k more).map (Entry.behind lines.length) := by
  induction lines generalizing k with
  | nil => exact (List.map_id _).symm
  | cons line lines ih =>
    have hbehind : (entries opens (k + 1) more).map (Entry.behind lines.length) =
        (entries opens k more).map (Entry.behind (lines.length + 1)) := by
      rw [← entries_behind, ← entries_behind, Nat.add_assoc, Nat.add_comm 1]
    rw [List.cons_append, entries, entries, ih, hbehind, takeWhile_append_of_begins h,
      List.length_cons]
    split <;> rfl

section Excess

theorem excess?_append (h : Begins opens more) (hne : more ≠ []) :
    excess? rule opens (lines ++ more) =
      (excess? rule opens more).map (RunFault.behind lines.length) := by
  have hentries : (entries opens 1 more).map (Entry.behind lines.length) ≠ [] := by
    rw [Ne, List.map_eq_nil_iff]
    exact h.entries_ne_nil hne 1
  rw [excess?, excess?, entries_append h, List.getLast?_append_of_ne_nil _ hentries,
    List.getLast?_map]
  cases (entries opens 1 more).getLast? with
  | none => rfl
  | some e =>
    have hlimit : limit? rule (e.behind lines.length) = limit? rule e := rfl
    have hcount : (e.behind lines.length).lineCount = e.lineCount := rfl
    rw [Option.map_some, Option.bind_some, Option.bind_some, hlimit, hcount]
    split
    · rw [Option.map_map]
      rfl
    · rfl

/-- Behind lines within the limits the first line at fault is the first one of the others. -/
theorem firstExcess?_append_of_begins (hlines : firstExcess? rule opens lines = none)
    (h : Begins opens more) :
    firstExcess? rule opens (lines ++ more) = (firstExcess? rule opens more).map
      (Prod.map (lines.length + ·) (RunFault.behind lines.length)) := by
  induction more using List.reverseRecOn with
  | nil =>
    rw [List.append_nil, hlines]
    rfl
  | append_singleton more line ih =>
    have hne : more ++ [line] ≠ [] := List.append_ne_nil_of_right_ne_nil _ (List.cons_ne_nil _ _)
    rw [← List.append_assoc, firstExcess?_concat, ih h.of_concat, firstExcess?_concat,
      List.append_assoc, excess?_append h hne, List.length_append]
    cases firstExcess? rule opens more with
    | some found => rfl
    | none => cases excess? rule opens (more ++ [line]) <;> rfl

/-- A boundary line is not at fault. -/
theorem pos_of_firstExcess? (h : Begins opens more) {n : Nat} {fault : RunFault}
    (hfirst : firstExcess? rule opens more = some (n, fault)) : 0 < n := by
  cases more with
  | nil => cases hfirst
  | cons first more =>
    have hone : firstExcess? rule opens [first] = none := by
      have hlast : excess? rule opens ([] ++ [first]) = none :=
        Reflects.excess?_concat_of_opens (h first rfl)
      rw [← List.nil_append [first], firstExcess?_concat, hlast]
      rfl
    exact length_le_of_firstExcess? hone hfirst

end Excess

theorem failure_of_feed {failure : Option ReadFault}
    (h : (feed rule opens lines failure).ending.fault? = none) :
    firstExcess? rule opens lines = none ∧ failure = none := by
  cases hfirst : firstExcess? rule opens lines with
  | some found =>
    simp only [feed, hfirst] at h
    cases h
  | none =>
    cases failure with
    | some fault =>
      simp only [feed, hfirst] at h
      cases h
    | none => exact ⟨rfl, rfl⟩

def start (e : Entry) : Nat × Text := (e.startLine, e.content)

theorem starts_map_arrival (es : List Entry) (linesRead : Nat) (ending : Ending) :
    (⟨es.map arrival, linesRead, ending⟩ : Feed Text).starts = es.map start := by
  rw [Feed.starts, List.map_map]
  rfl

theorem map_start_behind (es : List Entry) (n : Nat) :
    (es.map (Entry.behind n)).map start =
      (es.map start).map (Feed.startBehind n) := by
  rw [List.map_map, List.map_map]
  rfl

/-- The feed of lines that are read to their end and whose last entry counts as complete. -/
theorem feed_emit (htrailing : rule.trailing = .emit) (h : firstExcess? rule opens lines = none) :
    (feed rule opens lines none).starts = (entries opens 1 lines).map start ∧
    (feed rule opens lines none).linesRead = lines.length ∧
    (feed rule opens lines none).ending = .finished (lines.takeWhile (!opens ·)).length none := by
  have hfeed : feed rule opens lines none = ⟨(entries opens 1 lines).dropLast.map arrival ++
      (entries opens 1 lines).getLast?.toList.map fun e => ⟨lines.length, e.startLine, e.content⟩,
      lines.length, .finished (lines.takeWhile (!opens ·)).length none⟩ := by
    simp only [feed, h, htrailing]
  rw [hfeed]
  refine ⟨?_, rfl, rfl⟩
  rw [Feed.starts, List.map_append, List.map_map]
  rcases List.eq_nil_or_concat (entries opens 1 lines) with hnil | ⟨front, last, hlast⟩
  · rw [hnil]
    rfl
  · rw [hlast, List.concat_eq_append, List.dropLast_concat, List.getLast?_concat, List.map_append]
    rfl

/-- Only the last one of the entries is incomplete, and it is one of the lines behind. -/
theorem dropLast_entries_append (h : Begins opens more) (hne : more ≠ []) :
    ((entries opens 1 (lines ++ more)).dropLast).map start =
      (entries opens 1 lines).map start ++
        ((entries opens 1 more).dropLast.map start).map
          (Feed.startBehind lines.length) := by
  have hentries : (entries opens 1 more).map (Entry.behind lines.length) ≠ [] := by
    rw [Ne, List.map_eq_nil_iff]
    exact h.entries_ne_nil hne 1
  rw [entries_append h, List.dropLast_append_of_ne_nil hentries, List.map_append,
    ← List.map_dropLast, map_start_behind]

/-- Feeds that end in a fault hold what is complete by then. -/
theorem joins_of_failed (htrailing : rule.trailing = .emit)
    (hlines : firstExcess? rule opens lines = none) (h : Begins opens more) (hne : more ≠ [])
    (n : Nat) (fault : RunFault) :
    Feed.Joins (feed rule opens lines none)
      ⟨(entries opens 1 more).dropLast.map arrival, n, .failed fault⟩
      ⟨(entries opens 1 (lines ++ more)).dropLast.map arrival, lines.length + n,
        .failed (fault.behind lines.length)⟩ := by
  obtain ⟨hstarts, hread, -⟩ := feed_emit htrailing hlines
  refine ⟨?_, ?_, ?_, ?_⟩
  · rw [starts_map_arrival, starts_map_arrival, hstarts, hread]
    exact dropLast_entries_append h hne
  · rw [hread]
    rfl
  · rw [hread]
  · intro hfault
    cases hfault

theorem feed_joins (htrailing : rule.trailing = .emit)
    (hlines : firstExcess? rule opens lines = none) (h : Begins opens more)
    {failure : Option ReadFault} (hnil : more = [] → failure = none) :
    Feed.Joins (feed rule opens lines none) (feed rule opens more failure)
      (feed rule opens (lines ++ more) failure) := by
  have hexcess := firstExcess?_append_of_begins hlines h
  cases hfirst : firstExcess? rule opens more with
  | some found =>
    obtain ⟨n, fault⟩ := found
    have hne : more.take n ≠ [] := by
      have hpos := pos_of_firstExcess? h hfirst
      cases more with
      | nil => cases hfirst
      | cons first more =>
        rw [← Nat.succ_pred_eq_of_pos hpos, List.take_succ_cons]
        exact List.cons_ne_nil _ _
    rw [hfirst, Option.map_some, Prod.map_apply] at hexcess
    have hmore : feed rule opens more failure =
        ⟨(entries opens 1 (more.take n)).dropLast.map arrival, n + 1, .failed fault⟩ := by
      simp only [feed, hfirst]
    have hall : feed rule opens (lines ++ more) failure =
        ⟨(entries opens 1 (lines ++ more.take n)).dropLast.map arrival, lines.length + (n + 1),
          .failed (fault.behind lines.length)⟩ := by
      simp only [feed, hexcess, List.take_length_add_append, Nat.add_assoc]
    rw [hmore, hall]
    exact joins_of_failed htrailing hlines (h.take n) hne _ _
  | none =>
    rw [hfirst, Option.map_none] at hexcess
    cases failure with
    | some fault =>
      have hne : more ≠ [] := by
        intro hempty
        cases hnil hempty
      have hmore : feed rule opens more (some fault) =
          ⟨(entries opens 1 more).dropLast.map arrival, more.length, .failed (.read fault)⟩ := by
        simp only [feed, hfirst]
      have hall : feed rule opens (lines ++ more) (some fault) =
          ⟨(entries opens 1 (lines ++ more)).dropLast.map arrival, lines.length + more.length,
            .failed (.read fault)⟩ := by
        simp only [feed, hexcess, List.length_append]
      rw [hmore, hall]
      exact joins_of_failed htrailing hlines h hne _ (.read fault)
    | none =>
      obtain ⟨hstarts, hread, hending⟩ := feed_emit htrailing hlines
      obtain ⟨hstarts', hread', hending'⟩ := feed_emit htrailing hfirst
      obtain ⟨hstarts'', hread'', hending''⟩ := feed_emit htrailing hexcess
      refine ⟨?_, ?_, ?_, ?_⟩
      · rw [hstarts, hstarts', hstarts'', hread, entries_append h, List.map_append,
          map_start_behind]
      · rw [hending', hending'']
        rfl
      · rw [hread, hread', hread'', List.length_append]
      · intro _
        rw [hending, hending', hending'', takeWhile_append_of_begins h, h.takeWhile_eq_nil]
        rfl

theorem zipIdx_behind (k n : Nat) (lines : List Text) :
    lines.zipIdx (k + n) = (lines.zipIdx k).map (Prod.map id (· + n)) := by
  induction lines generalizing k with
  | nil => rfl
  | cons line lines ih =>
    rw [List.zipIdx_cons, List.zipIdx_cons, Nat.add_right_comm, ih]
    rfl

/-- Every line is an entry of its own, so these lines may be cut anywhere. -/
theorem lineFeed_joins (lines more : List Text) (failure : Option ReadFault) :
    Feed.Joins (lineFeed lines none) (lineFeed more failure)
      (lineFeed (lines ++ more) failure) := by
  refine ⟨?_, ?_, List.length_append, ?_⟩
  · simp only [Feed.starts, lineFeed]
    rw [List.zipIdx_append, zipIdx_behind, List.filter_append, List.filter_map, List.map_append,
      List.map_append, List.map_map, List.map_map, List.map_map, List.map_map, List.map_map]
    rfl
  · cases failure <;> rfl
  · cases failure with
    | some fault =>
      intro hfault
      cases hfault
    | none => exact fun _ => rfl

end Cut
end ReplayLog
