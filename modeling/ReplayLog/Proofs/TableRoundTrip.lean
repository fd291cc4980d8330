import Mathlib.Data.List.Forall2
import ReplayLog.Proofs.SieveDrain
import ReplayLog.Proofs.TableRendering
import ReplayLog.Table.Row

/-! # Reading back a table

Whatever way the rows of a table were written, under a header of distinct names, reading the table
gives every row its values under the names of the header. -/
namespace ReplayLog

namespace Row

theorem put_of_not_mem {row : Row} {name : Text} (h : name ∉ row.map Prod.fst) (value : Text) :
    row.put name value = row ++ [(name, value)] := by
  induction row with
  | nil => rfl
  | cons cell row ih =>
    obtain ⟨n, v⟩ := cell
    rw [List.map_cons, List.mem_cons, not_or] at h
    rw [put, if_neg fun hn => h.1 hn.symm, ih h.2, List.cons_append]

theorem find?_of_mem {row : Row} {name value : Text} (hnodup : (row.map Prod.fst).Nodup)
    (h : (name, value) ∈ row) : row.find? name = some value := by
  induction row with
  | nil => exact absurd h List.not_mem_nil
  | cons cell row ih =>
    rw [List.map_cons, List.nodup_cons] at hnodup
    rcases List.mem_cons.1 h with rfl | h
    · simp [find?]
    · have hne : cell.1 ≠ name := by
        rintro rfl
        exact hnodup.1 (List.mem_map.2 ⟨_, h, rfl⟩)
      have hfind := ih hnodup.2 h
      rw [find?] at hfind ⊢
      rwa [List.find?_cons_of_neg (by simpa using hne)]

theorem get_of_mem {row : Row} {name value : Text} (hnodup : (row.map Prod.fst).Nodup)
    (h : (name, value) ∈ row) : row.get name = .ok value := by
  rw [get, find?_of_mem hnodup h]

end Row

namespace Table

theorem decode_toUtf8 (e : Encoding) (t : Text) : decode e (Text.toUtf8 t) = .ok t := by
  rw [decode, Encoding.decode_toUtf8]
  rfl

theorem mapM_decode_toUtf8 (e : Encoding) (ts : List Text) :
    (ts.map Text.toUtf8).mapM (decode e) = .ok ts := by
  induction ts with
  | nil => rfl
  | cons t ts ih =>
    rw [List.map_cons, List.mapM_cons, decode_toUtf8, ih]
    rfl

theorem foldlM_addCell (e : Encoding) {names : List Text} (values : List Text) {row : Row}
    (hnodup : (row.map Prod.fst ++ names).Nodup) (hnames : ∀ name ∈ names, name ≠ []) :
    (names.zip (values.map Text.toUtf8)).foldlM (addCell e) row =
      .ok (row ++ names.zip values) := by
  induction names generalizing values row with
  | nil => simp [pure, Except.pure]
  | cons name names ih =>
    cases values with
    | nil => simp [pure, Except.pure]
    | cons value values =>
      have hname : name ≠ [] := hnames name List.mem_cons_self
      have hnew : name ∉ row.map Prod.fst := by
        intro hmem
        exact (List.nodup_append.1 hnodup).2.2 name hmem name List.mem_cons_self rfl
      have hadd : addCell e row (name, Text.toUtf8 value) = .ok (row ++ [(name, value)]) := by
        rw [addCell, if_neg (by simpa using hname), decode_toUtf8, ← Row.put_of_not_mem hnew]
        rfl
      rw [List.map_cons, List.zip_cons_cons, List.foldlM_cons, hadd, List.zip_cons_cons]
      have hnodup' : ((row ++ [(name, value)]).map Prod.fst ++ names).Nodup := by
        simpa using hnodup
      have := ih values hnodup' fun n hn => hnames n (List.mem_cons_of_mem _ hn)
      rw [List.append_assoc] at this
      exact this

/-- Only a text that begins with U+FEFF begins with the mark. -/
theorem head?_of_mark {t : Text} (h : mark <+: Text.toUtf8 t) : t.head? = some '\uFEFF' := by
  obtain ⟨rest, hrest⟩ := h
  cases t with
  | nil => cases hrest
  | cons c t =>
    obtain ⟨b, bs, hencode, hsequence⟩ := Utf8.sequence_utf8EncodeChar c (Text.toUtf8 t)
    rw [Text.toUtf8_cons, hencode] at hrest
    obtain ⟨rfl, hbs⟩ := List.cons.inj hrest
    have hmark : Utf8.sequence 0xEF (0xBB :: 0xBF :: rest) = .scalar '\uFEFF' rest := rfl
    rw [show bs ++ Text.toUtf8 t = 0xBB :: 0xBF :: rest from hbs.symm, hmark] at hsequence
    cases hsequence
    rfl

structure Sheet where
  header : WrittenRow
  rows : List WrittenRow
  two_le : 2 ≤ header.cells.length
  width : ∀ row ∈ rows, row.cells.length = header.cells.length
  nodup : header.values.Nodup
  ne_nil : ∀ name ∈ header.values, name ≠ []
  trimmed : ∀ name ∈ header.values, name.trimEnd = name
  unmarked : ∀ name, header.values.head? = some name → name.head? ≠ some '\uFEFF'

namespace Sheet

def bytes (s : Sheet) : List UInt8 := Text.toUtf8 ((s.header :: s.rows).flatMap WrittenRow.text)

theorem length_values (s : Sheet) {w : WrittenRow} (hw : w ∈ s.rows) :
    s.header.values.length = w.values.length := by
  rw [WrittenRow.values, WrittenRow.values, List.length_map, List.length_map, s.width w hw]

theorem two_le_row (s : Sheet) : ∀ w ∈ s.header :: s.rows, 2 ≤ w.cells.length := by
  intro w hw
  rcases List.mem_cons.1 hw with rfl | hw
  · exact s.two_le
  · exact s.width w hw ▸ s.two_le

/-- What is written first is a quote or the first character of the first name. -/
theorem no_mark (s : Sheet) :
    ¬mark <+: Text.toUtf8 ((s.header :: s.rows).flatMap WrittenRow.dense) := by
  intro h
  have hhead := head?_of_mark h
  have hunmarked := s.unmarked
  have hne_nil := s.ne_nil
  have htwo := s.two_le
  rw [List.flatMap_cons, WrittenRow.dense] at hhead
  rw [WrittenRow.values] at hunmarked hne_nil
  generalize s.header.cells = cells at hhead hunmarked hne_nil htwo
  rcases cells with - | ⟨c, - | ⟨c', cells⟩⟩
  · simp at htwo
  · simp at htwo
  · have hname := hne_nil c.value List.mem_cons_self
    have hfirst := hunmarked c.value rfl
    rw [List.map_cons, List.map_cons, List.intercalate_cons_cons, Cell.written] at hhead
    cases hq : c.quoted with
    | true => simp [hq] at hhead
    | false =>
      cases hvalue : c.value with
      | nil => exact hname hvalue
      | cons x xs =>
        rw [hvalue] at hfirst
        simp [hq, hvalue] at hhead
        exact hfirst (by rw [hhead, List.head?_cons])

/-- A row of the table is read with its values under the names of the header. -/
theorem decodeRow_eq (s : Sheet) {e : Encoding} {t : Table} {r : RawRow} {w : WrittenRow}
    (hencoding : t.encoding = e) (hcolumns : t.columns = s.header.fields)
    (hr : r.fields = w.fields.map Text.toUtf8) (hw : w ∈ s.rows) :
    t.decodeRow r = .ok (s.header.values.zip w.values) := by
  have hnodup : (([] : Row).map Prod.fst ++ s.header.values).Nodup := by simpa using s.nodup
  have hfold := foldlM_addCell e w.values hnodup s.ne_nil
  rw [decodeRow, hencoding, hcolumns, hr, WrittenRow.fields, WrittenRow.fields, List.map_append,
    List.zip_append (by rw [s.length_values hw, List.length_map]), List.foldlM_append, hfold,
    List.nil_append]
  cases s.header.trailingComma <;> cases w.trailingComma <;> rfl

theorem rawRows_eq (s : Sheet) :
    ∃ header rows,
      rawRows (Text.toUtf8 ((s.header :: s.rows).flatMap WrittenRow.dense)) true = header :: rows ∧
      header.fields = s.header.fields.map Text.toUtf8 ∧
      List.Forall₂ (fun r w => r.fields = w.fields.map Text.toUtf8) rows s.rows := by
  have hraw := rawRows_writtenRows s.two_le_row true
  generalize rawRows (Text.toUtf8 ((s.header :: s.rows).flatMap WrittenRow.dense)) true = raw at hraw
  cases raw with
  | nil => cases hraw
  | cons header rows =>
    obtain ⟨hheader, hrest⟩ := List.cons.inj hraw
    rw [← List.forall₂_eq_eq_eq, List.forall₂_map_left_iff, List.forall₂_map_right_iff] at hrest
    exact ⟨header, rows, rfl, hheader, hrest⟩

/-- The header is decoded to its fields, and the raw rows are those that were written. -/
theorem ofSource_eq (s : Sheet) (e : Encoding) (b : BufferedSource) (hbytes : b.bytes = s.bytes)
    (hfailure : b.source.failure = none) :
    ∃ rows, ofSource e b = .ok ⟨e, s.header.fields, rows, none⟩ ∧
      List.Forall₂ (fun r w => r.fields = w.fields.map Text.toUtf8) rows s.rows := by
  obtain ⟨reads, hdrain, hreads⟩ :=
    LeadingSpace.Sieve.drain_eq (show readSize ≠ 0 by decide) (.ofSource b)
  have hpassing : reads.flatten =
      Text.toUtf8 ((s.header :: s.rows).flatMap WrittenRow.dense) := by
    rw [hreads, LeadingSpace.Sieve.passing]
    simp only [LeadingSpace.Sieve.ofSource, hbytes, bytes, sift_writtenRows]
  have hfailure' : (LeadingSpace.Sieve.ofSource b).source.source.failure = none := hfailure
  have hcontent := content_of_no_mark reads none (hpassing ▸ s.no_mark)
  obtain ⟨header, rows, hrows, hheader, hrest⟩ := s.rawRows_eq
  rw [← hpassing] at hrows
  have htrim : s.header.fields.map Text.trimEnd = s.header.fields := by
    rw [WrittenRow.fields, List.map_append, List.map_congr_left (g := id) s.trimmed, List.map_id]
    cases s.header.trailingComma <;> rfl
  refine ⟨rows, ?_, hrest⟩
  simp only [ofSource, hdrain, hfailure', hcontent, Option.isNone_none, hrows, hheader,
    mapM_decode_toUtf8]
  change Except.ok (Table.mk e (s.header.fields.map Text.trimEnd) rows none) = _
  rw [htrim]

/-- However a table is written and however its octets come in, every row is read once, in order,
with its values under the names of the header, and nothing else is read. -/
theorem read_back (s : Sheet) (e : Encoding) (b : BufferedSource) (hbytes : b.bytes = s.bytes)
    (hfailure : b.source.failure = none) :
    ∃ t, ofSource e b = .ok t ∧
      List.Forall₂
        (fun item w => ∃ line, ∃ row : Row, item = .ok (line, row) ∧
          row = s.header.values.zip w.values ∧
          ∀ name value, (name, value) ∈ s.header.values.zip w.values → row.get name = .ok value)
        t.items s.rows := by
  obtain ⟨rows, htable, hrows⟩ := s.ofSource_eq e b hbytes hfailure
  rw [List.forall₂_iff_zip] at hrows
  refine ⟨_, htable, ?_⟩
  rw [items, List.append_nil, List.forall₂_map_left_iff, List.forall₂_iff_zip]
  refine ⟨hrows.1, fun {r w} hmem => ?_⟩
  have hw : w ∈ s.rows := (List.of_mem_zip hmem).2
  refine ⟨r.line, _, ?_, rfl, ?_⟩
  · rw [s.decodeRow_eq rfl rfl (hrows.2 hmem) hw]
    rfl
  · intro name value hvalue
    refine Row.get_of_mem ?_ hvalue
    rw [List.map_fst_zip (s.length_values hw).le]
    exact s.nodup

def statements : Sheet where
  header := ⟨[⟨0, false, "id".toList, fun _ => by constructor <;> decide⟩,
    ⟨1, false, "sql".toList, fun _ => by constructor <;> decide⟩], true, true⟩
  rows := [⟨[⟨0, false, "7".toList, fun _ => by constructor <;> decide⟩,
    ⟨2, true, "select \"é\",\n 1".toList, nofun⟩], true, false⟩]
  two_le := by decide
  width := by decide
  nodup := by decide
  ne_nil := by decide
  trimmed := by decide
  unmarked := by simp [WrittenRow.values]

theorem read_back_statements :
    let b := BufferedSource.ofSource 4 (.ofReads
      [Text.toUtf8 "id, sql,\r\n7,  \"sel".toList, Text.toUtf8 "ect \"\"é\"\",\n 1\",\n".toList] none)
    b.bytes = statements.bytes ∧ b.source.failure = none ∧
      ∃ t, ofSource .lossy b = .ok t ∧
        List.Forall₂
          (fun item w => ∃ line, ∃ row : Row, item = .ok (line, row) ∧
            row = statements.header.values.zip w.values ∧
            ∀ name value, (name, value) ∈ statements.header.values.zip w.values →
              row.get name = .ok value)
          t.items statements.rows := by
  refine ⟨by decide, rfl, ?_⟩
  exact read_back statements .lossy _ (by decide) rfl

end Sheet
end Table
end ReplayLog
