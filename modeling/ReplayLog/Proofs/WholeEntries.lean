import ReplayLog.Entry.Feed
import ReplayLog.Proofs.PhysicalLines
import ReplayLog.Proofs.Trimming
import ReplayLog.Proofs.Utf8RoundTrip

/-! # Whole entries

A source that is nothing but entries, each opened by its first line only and within the limits, is
gathered into exactly these entries, if the last one counts as complete. -/
namespace ReplayLog

namespace Text

def lines (t : Text) : List Text := t.splitOn '\n'

theorem joinLines_lines (t : Text) : joinLines (lines t) = t := List.intercalate_splitOn '\n'

theorem lines_ne_nil (t : Text) : lines t ≠ [] := List.splitOn_ne_nil _ _

theorem not_mem_of_mem_lines {t line : Text} (h : line ∈ lines t) : '\n' ∉ line := by
  rw [lines] at h
  induction t generalizing line with
  | nil =>
    rw [List.splitOn_nil, List.mem_singleton] at h
    rw [h]
    exact List.not_mem_nil
  | cons c t ih =>
    rw [List.splitOn_cons_eq_if_modifyHead] at h
    split at h
    · next hc =>
      rcases List.mem_cons.1 h with rfl | h
      · exact List.not_mem_nil
      · exact ih h
    · next hc =>
      obtain ⟨first, more, hsplit⟩ := List.exists_cons_of_ne_nil (List.splitOn_ne_nil '\n' t)
      rw [hsplit, List.modifyHead_cons] at h
      rcases List.mem_cons.1 h with rfl | h
      · have hfirst : '\n' ∉ first := ih (by rw [hsplit]; exact List.mem_cons_self)
        rw [List.mem_cons, not_or]
        exact ⟨fun hn => hc (by simp [← hn]), hfirst⟩
      · exact ih (by rw [hsplit]; exact List.mem_cons_of_mem _ h)

/-- The first line begins with what the text begins with, up to a line feed. -/
theorem lines_append {before : Text} (h : '\n' ∉ before) (t : Text) :
    ∃ first more, lines t = first :: more ∧ lines (before ++ t) = (before ++ first) :: more := by
  obtain ⟨first, more, hlines⟩ := List.exists_cons_of_ne_nil (lines_ne_nil t)
  refine ⟨first, more, hlines, ?_⟩
  induction before with
  | nil => exact hlines
  | cons c before ih =>
    rw [List.mem_cons, not_or] at h
    have hsplit : (before ++ t).splitOn '\n' = (before ++ first) :: more := ih h.2
    rw [lines, List.cons_append, List.splitOn_cons_eq_if_modifyHead, hsplit,
      if_neg (by simpa using Ne.symm h.1)]
    rfl

end Text

/-- Only a carriage return of the text is taken off its octets. -/
theorem withoutReturn_concat {c : Char} (hc : c ≠ '\r') (t : Text) :
    withoutReturn (Text.toUtf8 (t ++ [c])) = Text.toUtf8 (t ++ [c]) := by
  have hlast : (Text.toUtf8 (t ++ [c])).getLast? ≠ some carriageReturn := by
    intro hlast
    have hne : Text.toUtf8 [c] ≠ [] := by
      obtain ⟨b, bs, hencode, -⟩ := Utf8.sequence_utf8EncodeChar c []
      simp [Text.toUtf8_cons, hencode]
    rw [Text.toUtf8_append, List.getLast?_append_of_ne_nil _ hne] at hlast
    have hreturn := Text.mem_of_mem_toUtf8 (n := 0x0D) (by omega) (List.mem_of_getLast? hlast)
    exact hc (List.mem_singleton.1 hreturn).symm
  rw [withoutReturn, if_neg hlast]

theorem withoutReturn_of_trim {line : Text} (h : line.trim = line) :
    withoutReturn (Text.toUtf8 line) = Text.toUtf8 line := by
  rcases List.eq_nil_or_concat line with rfl | ⟨front, c, rfl⟩
  · rfl
  · rw [List.concat_eq_append] at h ⊢
    have hblank : isBlank c = false :=
      Text.isBlank_of_getLast?_trim (t := front ++ [c]) (by rw [h, List.getLast?_concat])
    apply withoutReturn_concat
    rintro rfl
    exact absurd hblank (by decide)

/-- The lines of a text that ends in a line feed are read as they are. -/
theorem physicalLines_text (e : Encoding) {t : Text} (h : ∀ line ∈ t.lines, line.trim = line)
    (bs : List UInt8) (failure : Option String) :
    physicalLines e (Text.toUtf8 (t ++ ['\n']) ++ bs) failure =
      t.lines.map .ok ++ physicalLines e bs failure := by
  have hfree : ∀ line ∈ t.lines, '\n' ∉ line := fun line => Text.not_mem_of_mem_lines
  have hne := Text.lines_ne_nil t
  have hjoin := Text.joinLines_lines t
  generalize t.lines = ls at h hfree hne hjoin
  subst hjoin
  induction ls with
  | nil => exact absurd rfl hne
  | cons line ls ih =>
    have hline : lineFeed ∉ Text.toUtf8 line := by
      intro hmem
      exact hfree line List.mem_cons_self (Text.mem_of_mem_toUtf8 (n := 0x0A) (by omega) hmem)
    have hread : (e.decode (withoutReturn (Text.toUtf8 line))).mapError ReadFault.notUtf8 =
        .ok line := by
      rw [withoutReturn_of_trim (h line List.mem_cons_self), Encoding.decode_toUtf8]
      rfl
    have hsplit (rest : List UInt8) :
        physicalLines e (Text.toUtf8 line ++ lineFeed :: rest) failure =
          .ok line :: physicalLines e rest failure := by
      rw [physicalLines_append_lineFeed e hline, hread]
    cases ls with
    | nil =>
      rw [Text.joinLines_singleton, Text.toUtf8_append, List.append_assoc]
      exact hsplit bs
    | cons next ls =>
      have hrest := ih (fun l hl => h l (List.mem_cons_of_mem _ hl))
        (fun l hl => hfree l (List.mem_cons_of_mem _ hl)) (List.cons_ne_nil _ _)
      have htext : Text.toUtf8 (Text.joinLines (line :: next :: ls) ++ ['\n']) ++ bs =
          Text.toUtf8 line ++ lineFeed ::
            (Text.toUtf8 (Text.joinLines (next :: ls) ++ ['\n']) ++ bs) := by
        rw [Text.joinLines, List.intercalate_cons_cons]
        simp only [Text.toUtf8_append, List.append_assoc]
        rfl
      rw [htext, hsplit, hrest]
      rfl

/-- An entry as a source holds it: opened by its first line only, no blanks around its lines, and
within the limits. -/
structure Whole (rule : SegmentRule) (opens : Text → Bool) (t : Text) : Prop where
  opened : ∃ first more, t.lines = first :: more ∧ opens first = true ∧
    ∀ line ∈ more, opens line = false
  trimmed : ∀ line ∈ t.lines, line.trim = line
  lines_le : t.lines.length ≤ rule.maxLines
  bytes_le : t.byteSize ≤ rule.maxBytes

/-- A text is whole if what it begins with opens an entry. -/
theorem Whole.of_opening {rule : SegmentRule} {opens : Text → Bool} {t opening rest : Text}
    (hfree : '\n' ∉ opening) (ht : t = opening ++ rest) (hopens : ∀ more, opens (opening ++ more) = true)
    (htrimmed : ∀ line ∈ t.lines, line.trim = line)
    (hcontinuing : ∀ line ∈ t.lines.tail, opens line = false)
    (hlines : t.lines.length ≤ rule.maxLines) (hbytes : t.byteSize ≤ rule.maxBytes) :
    Whole rule opens t := by
  obtain ⟨first, more, -, hsplit⟩ := Text.lines_append hfree rest
  rw [← ht] at hsplit
  rw [hsplit] at hcontinuing
  exact ⟨⟨_, more, hsplit, hopens first, hcontinuing⟩, htrimmed, hlines, hbytes⟩

theorem physicalLines_texts (e : Encoding) {ts : List Text}
    (h : ∀ t ∈ ts, ∀ line ∈ t.lines, line.trim = line) :
    physicalLines e (Text.toUtf8 (ts.flatMap (· ++ ['\n']))) none =
      (ts.flatMap Text.lines).map .ok := by
  induction ts with
  | nil => rfl
  | cons t ts ih =>
    rw [List.flatMap_cons, Text.toUtf8_append, physicalLines_text e (h t List.mem_cons_self),
      ih fun t ht => h t (List.mem_cons_of_mem _ ht), List.flatMap_cons, List.map_append]

theorem BufferedSource.lines_texts (e : Encoding) {b : BufferedSource} {ts : List Text}
    (h : ∀ t ∈ ts, ∀ line ∈ t.lines, line.trim = line)
    (hbytes : b.shownBytes = Text.toUtf8 (ts.flatMap (· ++ ['\n'])))
    (hfailure : b.shownFailure = none) : b.lines e = (ts.flatMap Text.lines).map .ok := by
  rw [lines_eq_physicalLines, hbytes, hfailure, physicalLines_texts e h]

namespace OpenEntry

def pushAll (e : OpenEntry) (more : List Text) : OpenEntry := more.foldl push e

theorem lines_pushAll (e : OpenEntry) (more : List Text) :
    (e.pushAll more).lines.toList = e.lines.toList ++ more := by
  induction more generalizing e with
  | nil => exact (List.append_nil _).symm
  | cons line more ih =>
    have := ih (e.push line)
    rw [push, Array.toList_push, List.append_assoc] at this
    exact this

theorem lineCount_le_pushAll (e : OpenEntry) (more : List Text) :
    e.lineCount ≤ (e.pushAll more).lineCount := by
  have := congrArg List.length (lines_pushAll e more)
  rw [List.length_append, Array.length_toList, Array.length_toList] at this
  rw [Entry.lineCount, Entry.lineCount, this]
  exact Nat.le_add_right _ _

theorem bytes_le_pushAll (e : OpenEntry) (more : List Text) : e.bytes ≤ (e.pushAll more).bytes := by
  induction more generalizing e with
  | nil => exact Nat.le_refl _
  | cons line more ih =>
    have hone : e.bytes ≤ (e.push line).bytes := by
      rw [push]
      dsimp only
      omega
    exact hone.trans (ih (e.push line))

end OpenEntry

namespace Feed

variable {rule : SegmentRule} {opens : Text → Bool}

/-- Lines that continue the open entry go to its end, if all of them fit in. -/
theorem gatherFrom_continuing (h : rule.boundary = .marked opens) (arrived : List (Arrival Text))
    (taken preamble : Nat) {e : OpenEntry} {more : List Text}
    (hmore : ∀ line ∈ more, opens line = false ∧ line.trim = line)
    (hlines : (e.pushAll more).lineCount ≤ rule.maxLines)
    (hbytes : (e.pushAll more).bytes ≤ rule.maxBytes) (items : List (Except ReadFault Text)) :
    gatherFrom arrived ⟨rule, taken, preamble, some e⟩ (more.map .ok ++ items) =
      gatherFrom arrived ⟨rule, taken + more.length, preamble, some (e.pushAll more)⟩ items := by
  induction more generalizing taken e with
  | nil => rfl
  | cons line more ih =>
    obtain ⟨hcloses, htrim⟩ := hmore line List.mem_cons_self
    have hfits : Segmenter.exceeded? rule (e.push line) = none := by
      have hcount := ((e.push line).lineCount_le_pushAll more).trans hlines
      have hsize := ((e.push line).bytes_le_pushAll more).trans hbytes
      rw [Segmenter.exceeded?, if_neg (Nat.not_lt.2 hcount), if_neg (Nat.not_lt.2 hsize)]
    rw [List.map_cons, List.cons_append, gatherFrom, htrim,
      Segmenter.addLine_of_some (s := ⟨rule, taken, preamble, some e⟩) h hcloses rfl, hfits]
    dsimp only
    rw [ih _ (fun l hl => hmore l (List.mem_cons_of_mem _ hl)) hlines hbytes, List.length_cons,
      Nat.add_assoc, Nat.add_comm 1]
    rfl

/-- The open entry of a text completes the one before it. -/
theorem gatherFrom_whole (h : rule.boundary = .marked opens) {t : Text} (ht : Whole rule opens t)
    (arrived : List (Arrival Text)) (taken preamble : Nat) (current : Option OpenEntry)
    (items : List (Except ReadFault Text)) :
    ∃ (arrived' : List (Arrival Text)) (e : OpenEntry), e.content = t ∧
      arrived'.map Arrival.entry =
        (current.map fun e => e.content).toList ++ arrived.map Arrival.entry ∧
      gatherFrom arrived ⟨rule, taken, preamble, current⟩ (t.lines.map .ok ++ items) =
        gatherFrom arrived' ⟨rule, taken + t.lines.length, preamble, some e⟩ items := by
  obtain ⟨first, more, hlines, hopens, hcloses⟩ := ht.opened
  have htrim := ht.trimmed
  rw [hlines] at htrim
  have hmore : ∀ line ∈ more, opens line = false ∧ line.trim = line :=
    fun line hl => ⟨hcloses line hl, htrim line (List.mem_cons_of_mem _ hl)⟩
  have hall : ((OpenEntry.ofLine (taken + 1) first).pushAll more).lines.toList = t.lines := by
    rw [OpenEntry.lines_pushAll, hlines]
    rfl
  have hcount : ((OpenEntry.ofLine (taken + 1) first).pushAll more).lineCount ≤ rule.maxLines := by
    rw [Entry.lineCount, ← Array.length_toList, hall]
    exact ht.lines_le
  have hsize : ((OpenEntry.ofLine (taken + 1) first).pushAll more).bytes ≤ rule.maxBytes := by
    rw [OpenEntry.bytes_eq, hall, Text.joinLines_lines]
    exact ht.bytes_le
  have hcontent : ((OpenEntry.ofLine (taken + 1) first).pushAll more).content = t := by
    rw [Entry.content, hall, Text.joinLines_lines]
  have hrest (arrived' : List (Arrival Text)) :=
    gatherFrom_continuing h arrived' (taken + 1) preamble hmore hcount hsize items
  rw [hlines, List.map_cons, List.cons_append, gatherFrom, htrim first List.mem_cons_self,
    Segmenter.addLine_of_opens (s := ⟨rule, taken, preamble, current⟩) h hopens, List.length_cons,
    ← Nat.add_assoc, Nat.add_right_comm]
  cases current with
  | none => exact ⟨arrived, _, hcontent, rfl, hrest arrived⟩
  | some e =>
    refine ⟨_, _, hcontent, ?_, hrest (arrivalOf ⟨rule, taken + 1, preamble, _⟩ e.toEntry :: arrived)⟩
    rfl

/-- Whole entries are gathered one by one, in order. -/
theorem gatherFrom_wholes (h : rule.boundary = .marked opens) (htrailing : rule.trailing = .emit)
    {ts : List Text} (hts : ∀ t ∈ ts, Whole rule opens t) (arrived : List (Arrival Text))
    (taken preamble : Nat) (current : Option OpenEntry) :
    let feed := gatherFrom arrived ⟨rule, taken, preamble, current⟩ ((ts.flatMap Text.lines).map .ok)
    feed.arrivals.map Arrival.entry = (arrived.map Arrival.entry).reverse ++
      (current.map fun e => e.content).toList ++ ts ∧
    feed.linesRead = taken + (ts.flatMap Text.lines).length ∧ feed.ending = .finished preamble none := by
  induction ts generalizing arrived taken current with
  | nil =>
    cases current with
    | none => simp [gatherFrom, closeEntries, Segmenter.flush]
    | some e => simp [gatherFrom, closeEntries, Segmenter.flush, htrailing, arrivalOf]
  | cons t ts ih =>
    obtain ⟨arrived', e, hcontent, harrived, hgather⟩ :=
      gatherFrom_whole h (hts t List.mem_cons_self) arrived taken preamble current
        ((ts.flatMap Text.lines).map .ok)
    have := ih (fun t ht => hts t (List.mem_cons_of_mem _ ht)) arrived' (taken + t.lines.length)
      (some e)
    rw [List.flatMap_cons, List.map_append, hgather]
    obtain ⟨harrivals, hread, hending⟩ := this
    refine ⟨?_, ?_, hending⟩
    · rw [harrivals, harrived, Option.map_some, hcontent]
      cases current <;> simp
    · rw [hread, List.length_append, Nat.add_assoc]

/-- A source of whole entries is fed as these entries. -/
theorem ofEntries_wholes (h : rule.boundary = .marked opens) (htrailing : rule.trailing = .emit)
    {ts : List Text} (hts : ∀ t ∈ ts, Whole rule opens t) :
    (ofEntries rule ((ts.flatMap Text.lines).map .ok)).arrivals.map Arrival.entry = ts ∧
    (ofEntries rule ((ts.flatMap Text.lines).map .ok)).ending = .finished 0 none := by
  obtain ⟨harrivals, -, hending⟩ := gatherFrom_wholes h htrailing hts [] 0 0 none
  exact ⟨harrivals, hending⟩

end Feed

end ReplayLog
