import Mathlib.Data.List.Basic
import ReplayLog.Proofs.Utf8RoundTrip
import ReplayLog.Table.Grammar
import ReplayLog.Table.LeadingSpace

/-! # Written rows

A row may be written in many ways: spaces before its fields, quotes around them, a comma behind the
last one, either end of line. The sieve takes the spaces and nothing else, and the grammar gets back
the fields. Both machines are outside quotes behind every field, which is what the separators need. -/
namespace ReplayLog.Table

def doubled {α : Type} [BEq α] (quote : α) (xs : List α) : List α :=
  xs.flatMap fun x => if x == quote then [x, x] else [x]

theorem doubled_append {α : Type} [BEq α] (quote : α) (xs ys : List α) :
    doubled quote (xs ++ ys) = doubled quote xs ++ doubled quote ys :=
  List.flatMap_append

structure Bare (t : Text) : Prop where
  comma : ',' ∉ t
  carriageReturn : '\r' ∉ t
  lineFeed : '\n' ∉ t
  space : t.head? ≠ some ' '
  quote : t.head? ≠ some '"'

structure Cell where
  /-- Number of spaces before the field. -/
  spaces : Nat
  quoted : Bool
  value : Text
  bare : quoted = false → Bare value

namespace Cell

def written (c : Cell) : Text := if c.quoted then '"' :: (doubled '"' c.value ++ ['"']) else c.value

def text (c : Cell) : Text := List.replicate c.spaces ' ' ++ c.written

end Cell

structure WrittenRow where
  cells : List Cell
  /-- Whether a comma stands behind the last field. -/
  trailingComma : Bool
  /-- Whether a carriage return stands before the line feed. -/
  carriageReturn : Bool

namespace WrittenRow

def values (r : WrittenRow) : List Text := r.cells.map Cell.value

def ending (r : WrittenRow) : Text :=
  (if r.trailingComma then [','] else []) ++ (if r.carriageReturn then ['\r'] else []) ++ ['\n']

def text (r : WrittenRow) : Text := [','].intercalate (r.cells.map Cell.text) ++ r.ending

def dense (r : WrittenRow) : Text := [','].intercalate (r.cells.map Cell.written) ++ r.ending

/-- The fields that the row is read back as: a comma behind the last field makes one more. -/
def fields (r : WrittenRow) : List Text := r.values ++ if r.trailingComma then [[]] else []

end WrittenRow

section Octets

theorem toUtf8_doubled (t : Text) :
    Text.toUtf8 (doubled '"' t) = doubled 0x22 (Text.toUtf8 t) := by
  induction t with
  | nil => rfl
  | cons c t ih =>
    rw [Text.toUtf8_cons, doubled_append, ← ih, doubled, List.flatMap_cons, Text.toUtf8_append]
    congr 1
    by_cases hc : c = '"'
    · subst hc
      rfl
    · have hquote : ∀ b ∈ String.utf8EncodeChar c, ¬b = 0x22 := by
        rintro b hb rfl
        have : '"' ∈ [c] := Text.mem_of_mem_toUtf8 (n := 0x22) (by omega) (by simpa [Text.toUtf8])
        exact hc (List.mem_singleton.1 this).symm
      have hsingle : doubled 0x22 (String.utf8EncodeChar c) = String.utf8EncodeChar c := by
        rw [doubled, List.flatMap_congr (g := fun b => [b]), List.flatMap_singleton']
        intro b hb
        rw [if_neg (by simpa using hquote b hb)]
      rw [hsingle]
      simp [hc, Text.toUtf8]

theorem head?_toUtf8_ne {t : Text} {n : Nat} (hn : n < 0x80)
    (h : t.head? ≠ some (Char.ofNat n)) : (Text.toUtf8 t).head? ≠ some (UInt8.ofNat n) := by
  cases t with
  | nil => exact nofun
  | cons c t =>
    obtain ⟨b, bs, hencode, -⟩ := Utf8.sequence_utf8EncodeChar c []
    rw [Text.toUtf8_cons, hencode]
    intro hb
    have hb : b = UInt8.ofNat n := by simpa using hb
    have hmem : Char.ofNat n ∈ [c] :=
      Text.mem_of_mem_toUtf8 hn (by simp [Text.toUtf8, hencode, hb])
    exact h (by rw [List.mem_singleton.1 hmem, List.head?_cons])

namespace Bare

variable {t : Text}

theorem separators (h : Bare t) : ∀ b ∈ Text.toUtf8 t, b ≠ 0x2C ∧ b ≠ 0x0D ∧ b ≠ 0x0A := by
  intro b hb
  refine ⟨?_, ?_, ?_⟩
  · rintro rfl
    exact h.comma (Text.mem_of_mem_toUtf8 (n := 0x2C) (by omega) hb)
  · rintro rfl
    exact h.carriageReturn (Text.mem_of_mem_toUtf8 (n := 0x0D) (by omega) hb)
  · rintro rfl
    exact h.lineFeed (Text.mem_of_mem_toUtf8 (n := 0x0A) (by omega) hb)

theorem first (h : Bare t) {b : UInt8} {bs : List UInt8} (hb : Text.toUtf8 t = b :: bs) :
    b ≠ 0x20 ∧ b ≠ 0x22 := by
  have hspace := head?_toUtf8_ne (n := 0x20) (by omega) h.space
  have hquote := head?_toUtf8_ne (n := 0x22) (by omega) h.quote
  rw [hb, List.head?_cons] at hspace hquote
  exact ⟨fun h => hspace (congrArg some h), fun h => hquote (congrArg some h)⟩

end Bare

namespace Cell

variable {c : Cell}

theorem toUtf8_written_of_quoted (h : c.quoted = true) :
    Text.toUtf8 c.written = 0x22 :: (doubled 0x22 (Text.toUtf8 c.value) ++ [0x22]) := by
  rw [written, if_pos h, Text.toUtf8_cons, Text.toUtf8_append, toUtf8_doubled]
  rfl

theorem written_of_not_quoted (h : c.quoted = false) : c.written = c.value := by
  rw [written, if_neg (by simp [h])]

end Cell

end Octets

section Sieve
open LeadingSpace

theorem sift_bare {bs : List UInt8} (h : ∀ b ∈ bs, b ≠ comma ∧ b ≠ newline) :
    sift .bare bs = (bs, .bare) := by
  induction bs with
  | nil => rfl
  | cons b bs ih =>
    obtain ⟨hcomma, hnewline⟩ := h b List.mem_cons_self
    have hnext : State.next .bare b = .bare := by
      simp [State.next, State.next.unquoted, hcomma, hnewline]
    rw [sift, hnext, ih fun b hb => h b (List.mem_cons_of_mem _ hb)]
    rfl

theorem sift_quoted (bs : List UInt8) :
    sift .quoted (doubled quote bs) = (doubled quote bs, .quoted) := by
  induction bs with
  | nil => rfl
  | cons b bs ih =>
    rw [doubled, List.flatMap_cons, ← doubled, sift_append]
    by_cases hb : b = quote
    · subst hb
      have hpair : sift .quoted [quote, quote] = ([quote, quote], .quoted) := by decide
      rw [if_pos (by decide), hpair, ih]
    · have hnext : State.next .quoted b = .quoted := by simp [State.next, hb]
      have hone : sift .quoted [b] = ([b], .quoted) := by simp [sift, hnext, State.keeps]
      rw [if_neg (by simpa using hb), hone, ih]

theorem sift_replicate_space (n : Nat) :
    sift .fieldStart (List.replicate n space) = ([], .fieldStart) := by
  induction n with
  | zero => rfl
  | succ n ih =>
    rw [List.replicate_succ, sift, show State.next .fieldStart space = .fieldStart from rfl, ih]
    rfl

private theorem toUtf8_replicate_space (n : Nat) :
    Text.toUtf8 (List.replicate n ' ') = List.replicate n space := by
  induction n with
  | zero => rfl
  | succ n ih =>
    rw [List.replicate_succ, Text.toUtf8_cons, ih, List.replicate_succ]
    rfl

theorem sift_written (c : Cell) :
    ∃ s, s ≠ .quoted ∧ sift .fieldStart (Text.toUtf8 c.written) = (Text.toUtf8 c.written, s) := by
  cases hq : c.quoted with
  | true =>
    refine ⟨.quoteInQuoted, by decide, ?_⟩
    have hopen : State.next .fieldStart quote = .quoted := rfl
    have hclose : sift .quoted [quote] = ([quote], .quoteInQuoted) := by decide
    have hbytes : Text.toUtf8 c.written =
        quote :: (doubled quote (Text.toUtf8 c.value) ++ [quote]) :=
      Cell.toUtf8_written_of_quoted hq
    rw [hbytes, sift, hopen, sift_append, sift_quoted, hclose]
    rfl
  | false =>
    have hbare := c.bare hq
    rw [Cell.written_of_not_quoted hq]
    cases hbs : Text.toUtf8 c.value with
    | nil => exact ⟨.fieldStart, by decide, rfl⟩
    | cons b bs =>
      refine ⟨.bare, by decide, ?_⟩
      have hplain : ∀ b' ∈ b :: bs, b' ≠ comma ∧ b' ≠ newline := by
        intro b' hb'
        obtain ⟨hcomma, -, hnewline⟩ := hbare.separators b' (hbs ▸ hb')
        exact ⟨hcomma, hnewline⟩
      obtain ⟨hcomma, hnewline⟩ := hplain b List.mem_cons_self
      obtain ⟨hspace, hquote⟩ := hbare.first hbs
      have hspace : b ≠ space := hspace
      have hquote : b ≠ quote := hquote
      have hnext : State.next .fieldStart b = .bare := by
        simp [State.next, State.next.unquoted, hspace, hquote, hcomma, hnewline]
      rw [sift, hnext, sift_bare fun b hb => hplain b (List.mem_cons_of_mem _ hb)]
      simp [State.keeps, hspace]

theorem sift_cell (c : Cell) :
    ∃ s, s ≠ .quoted ∧ sift .fieldStart (Text.toUtf8 c.text) = (Text.toUtf8 c.written, s) := by
  obtain ⟨s, hs, hsift⟩ := sift_written c
  refine ⟨s, hs, ?_⟩
  rw [Cell.text, Text.toUtf8_append, toUtf8_replicate_space, sift_append, sift_replicate_space,
    hsift]
  rfl

theorem sift_cells (cells : List Cell) :
    ∃ s, s ≠ .quoted ∧
      sift .fieldStart (Text.toUtf8 ([','].intercalate (cells.map Cell.text))) =
        (Text.toUtf8 ([','].intercalate (cells.map Cell.written)), s) := by
  induction cells with
  | nil => exact ⟨.fieldStart, by decide, rfl⟩
  | cons c cells ih =>
    obtain ⟨s, hs, hcell⟩ := sift_cell c
    cases cells with
    | nil => exact ⟨s, hs, by simpa using hcell⟩
    | cons c' cells =>
      obtain ⟨last, hlast, hcells⟩ := ih
      refine ⟨last, hlast, ?_⟩
      have hcomma : sift s (Text.toUtf8 [',']) = (Text.toUtf8 [','], .fieldStart) := by
        cases s <;> first | rfl | exact absurd rfl hs
      simp only [List.map_cons, List.intercalate_cons_cons, Text.toUtf8_append] at hcells ⊢
      rw [List.append_assoc, sift_append, hcell, sift_append, hcomma, hcells, List.append_assoc]

/-- The sieve takes the spaces before the fields, and stands at the start of a field again behind
the row. -/
theorem sift_writtenRow (r : WrittenRow) :
    sift .fieldStart (Text.toUtf8 r.text) = (Text.toUtf8 r.dense, .fieldStart) := by
  obtain ⟨s, hs, hcells⟩ := sift_cells r.cells
  have hending : sift s (Text.toUtf8 r.ending) = (Text.toUtf8 r.ending, .fieldStart) := by
    rw [WrittenRow.ending]
    cases r.trailingComma <;> cases r.carriageReturn <;> cases s <;>
      first | rfl | exact absurd rfl hs
  rw [WrittenRow.text, WrittenRow.dense, Text.toUtf8_append, Text.toUtf8_append, sift_append,
    hcells, hending]

end Sieve

namespace Reading

/-- Where the reading stands, and what it holds, in the order of the octets. Lines are left out. -/
structure Stands (r : Reading) (position : Position) (field : List UInt8)
    (fields : List (List UInt8)) (rows : List (List (List UInt8))) : Prop where
  position : r.position = position
  field : r.field.reverse = field
  fields : r.fields.reverse = fields
  rows : r.rows.toList.map RawRow.fields = rows

variable {r : Reading} {position : Position} {field : List UInt8} {fields : List (List UInt8)}
  {rows : List (List (List UInt8))}

theorem stands_start : Stands start .rowStart [] [] [] := ⟨rfl, rfl, rfl, rfl⟩

/-- An octet that is no separator goes into the field, a quote only where one stands bare. -/
theorem Stands.push (h : Stands r position field fields rows) {b : UInt8}
    (hb : b ≠ 0x2C ∧ b ≠ 0x0D ∧ b ≠ 0x0A)
    (hposition : position = .bare ∨ position ≠ .quoted ∧ b ≠ 0x22) :
    Stands (r.step b) .bare (field ++ [b]) fields rows := by
  obtain ⟨rfl, rfl, rfl, rfl⟩ := h
  obtain ⟨hcomma, hreturn, hlineFeed⟩ := hb
  cases hp : r.position with
  | bare => constructor <;>
      simp [step, hp, stepUnquoted, isRowEnd, Reading.push, hcomma, hreturn, hlineFeed]
  | quoted => simp [hp] at hposition
  | rowStart =>
    have hquote : b ≠ 0x22 := by simpa [hp] using hposition
    constructor <;>
      simp [step, hp, stepUnquoted, isRowEnd, Reading.push, hcomma, hreturn, hlineFeed, hquote]
  | fieldStart =>
    have hquote : b ≠ 0x22 := by simpa [hp] using hposition
    constructor <;>
      simp [step, hp, stepUnquoted, isRowEnd, Reading.push, hcomma, hreturn, hlineFeed, hquote]
  | quoteInQuoted =>
    have hquote : b ≠ 0x22 := by simpa [hp] using hposition
    constructor <;>
      simp [step, hp, stepUnquoted, isRowEnd, Reading.push, hcomma, hreturn, hlineFeed, hquote]

theorem Stands.pushAll (h : Stands r .bare field fields rows) {bs : List UInt8}
    (hbs : ∀ b ∈ bs, b ≠ 0x2C ∧ b ≠ 0x0D ∧ b ≠ 0x0A) :
    Stands (bs.foldl step r) .bare (field ++ bs) fields rows := by
  induction bs generalizing r field with
  | nil => simpa using h
  | cons b bs ih =>
    have := ih (h.push (hbs b List.mem_cons_self) (.inl rfl))
      fun b hb => hbs b (List.mem_cons_of_mem _ hb)
    simpa using this

theorem Stands.openQuote (h : Stands r position field fields rows)
    (hposition : position = .rowStart ∨ position = .fieldStart) :
    Stands (r.step 0x22) .quoted field fields rows := by
  obtain ⟨rfl, rfl, rfl, rfl⟩ := h
  rcases hposition with hp | hp <;> constructor <;> simp [step, hp, isRowEnd]

theorem Stands.closeQuote (h : Stands r .quoted field fields rows) :
    Stands (r.step 0x22) .quoteInQuoted field fields rows := by
  obtain ⟨hp, rfl, rfl, rfl⟩ := h
  constructor <;> simp [step, hp]

theorem Stands.pushQuoted (h : Stands r .quoted field fields rows) {b : UInt8} (hb : b ≠ 0x22) :
    Stands (r.step b) .quoted (field ++ [b]) fields rows := by
  obtain ⟨hp, rfl, rfl, rfl⟩ := h
  by_cases hlineFeed : b = 0x0A
  · subst hlineFeed
    constructor <;> simp [step, hp, Reading.push]
  · constructor <;> simp [step, hp, hb, hlineFeed, Reading.push]

/-- A quote behind a quote is a quote of the field. -/
theorem Stands.pushQuote (h : Stands r .quoteInQuoted field fields rows) :
    Stands (r.step 0x22) .quoted (field ++ [0x22]) fields rows := by
  obtain ⟨hp, rfl, rfl, rfl⟩ := h
  constructor <;> simp [step, hp, Reading.push]

theorem Stands.pushDoubled (h : Stands r .quoted field fields rows) (bs : List UInt8) :
    Stands ((doubled 0x22 bs).foldl step r) .quoted (field ++ bs) fields rows := by
  induction bs generalizing r field with
  | nil => simpa [doubled] using h
  | cons b bs ih =>
    suffices hone : Stands ((doubled 0x22 [b]).foldl step r) .quoted (field ++ [b]) fields rows by
      have := ih hone
      rwa [← List.foldl_append, ← doubled_append, List.append_assoc, List.singleton_append] at this
    by_cases hb : b = 0x22
    · subst hb
      exact h.closeQuote.pushQuote
    · have hone : doubled 0x22 [b] = [b] := by simp [doubled, hb]
      rw [hone]
      exact h.pushQuoted hb

theorem Stands.comma (h : Stands r position field fields rows) (hposition : position ≠ .quoted) :
    Stands (r.step 0x2C) .fieldStart [] (fields ++ [field]) rows := by
  obtain ⟨rfl, rfl, rfl, rfl⟩ := h
  cases hp : r.position with
  | quoted => exact absurd hp hposition
  | rowStart => constructor <;> simp [step, hp, isRowEnd, stepUnquoted, endField]
  | fieldStart => constructor <;> simp [step, hp, stepUnquoted, endField]
  | bare => constructor <;> simp [step, hp, stepUnquoted, endField]
  | quoteInQuoted => constructor <;> simp [step, hp, stepUnquoted, endField]

theorem Stands.endOfRow (h : Stands r position field fields rows) (hquoted : position ≠ .quoted)
    (hstart : position ≠ .rowStart) {b : UInt8} (hb : b = 0x0D ∨ b = 0x0A) :
    Stands (r.step b) .rowStart [] [] (rows ++ [fields ++ [field]]) := by
  obtain ⟨rfl, rfl, rfl, rfl⟩ := h
  cases hp : r.position with
  | quoted => exact absurd hp hquoted
  | rowStart => exact absurd hp hstart
  | fieldStart =>
    rcases hb with rfl | rfl <;> constructor <;> simp [step, hp, stepUnquoted, isRowEnd, endRow]
  | bare =>
    rcases hb with rfl | rfl <;> constructor <;> simp [step, hp, stepUnquoted, isRowEnd, endRow]
  | quoteInQuoted =>
    rcases hb with rfl | rfl <;> constructor <;> simp [step, hp, stepUnquoted, isRowEnd, endRow]

theorem Stands.endRow (h : Stands r position field fields rows) :
    Stands r.endRow .rowStart [] [] (rows ++ [fields ++ [field]]) := by
  obtain ⟨-, rfl, rfl, rfl⟩ := h
  constructor <;> simp [Reading.endRow]

theorem Stands.skip (h : Stands r .rowStart field fields rows) {b : UInt8}
    (hb : b = 0x0D ∨ b = 0x0A) : Stands (r.step b) .rowStart field fields rows := by
  obtain ⟨hp, rfl, rfl, rfl⟩ := h
  rcases hb with rfl | rfl <;> constructor <;> simp [step, hp, isRowEnd]

/-- What stands behind the last field completes the row. -/
theorem Stands.ending (h : Stands r position field fields rows) (hquoted : position ≠ .quoted)
    (hstart : position ≠ .rowStart) (w : WrittenRow) :
    Stands ((Text.toUtf8 w.ending).foldl step r) .rowStart [] []
      (rows ++ [fields ++ [field] ++ if w.trailingComma then [[]] else []]) := by
  have endOfLine {r : Reading} {position : Position} {field : List UInt8} {fields : List (List UInt8)}
      (h : Stands r position field fields rows) (hquoted : position ≠ .quoted)
      (hstart : position ≠ .rowStart) :
      Stands ((Text.toUtf8 ((if w.carriageReturn then ['\r'] else []) ++ ['\n'])).foldl step r)
        .rowStart [] [] (rows ++ [fields ++ [field]]) := by
    cases w.carriageReturn with
    | true => exact (h.endOfRow hquoted hstart (.inl rfl)).skip (.inr rfl)
    | false => exact h.endOfRow hquoted hstart (.inr rfl)
  rw [WrittenRow.ending, List.append_assoc]
  cases w.trailingComma with
  | true =>
    rw [if_pos rfl, if_pos rfl, Text.toUtf8_append, List.foldl_append]
    exact endOfLine (h.comma hquoted) (by decide) (by decide)
  | false =>
    rw [if_neg Bool.false_ne_true, if_neg Bool.false_ne_true, List.nil_append, List.append_nil]
    exact endOfLine h hquoted hstart

/-- Behind a field the reading is outside quotes, and at the start of a row only if nothing was
written. -/
theorem Stands.cell (h : Stands r position [] fields rows)
    (hposition : position = .rowStart ∨ position = .fieldStart) (c : Cell) :
    ∃ position', position' ≠ .quoted ∧ (position' = .rowStart → position = .rowStart) ∧
      Stands ((Text.toUtf8 c.written).foldl step r) position' (Text.toUtf8 c.value) fields rows := by
  cases hq : c.quoted with
  | true =>
    refine ⟨.quoteInQuoted, by decide, nofun, ?_⟩
    rw [Cell.toUtf8_written_of_quoted hq, List.foldl_cons, List.foldl_append]
    exact ((h.openQuote hposition).pushDoubled _).closeQuote
  | false =>
    have hbare := c.bare hq
    have hplain := hbare.separators
    rw [Cell.written_of_not_quoted hq]
    cases hbs : Text.toUtf8 c.value with
    | nil => exact ⟨position, by rcases hposition with rfl | rfl <;> decide, id, h⟩
    | cons b bs =>
      rw [hbs] at hplain
      have hquoted : position ≠ .quoted := by rcases hposition with rfl | rfl <;> decide
      have hfirst := h.push (hplain b List.mem_cons_self) (.inr ⟨hquoted, (hbare.first hbs).2⟩)
      exact ⟨.bare, by decide, nofun,
        hfirst.pushAll fun b hb => hplain b (List.mem_cons_of_mem _ hb)⟩

theorem Stands.cells (h : Stands r position [] fields rows)
    (hposition : position = .rowStart ∨ position = .fieldStart) {cells : List Cell}
    (hcells : cells ≠ []) :
    ∃ position' field' fields', position' ≠ .quoted ∧
      (position' = .rowStart → position = .rowStart ∧ cells.length = 1) ∧
      fields' ++ [field'] = fields ++ cells.map (Text.toUtf8 ∘ Cell.value) ∧
      Stands ((Text.toUtf8 ([','].intercalate (cells.map Cell.written))).foldl step r)
        position' field' fields' rows := by
  induction cells generalizing r position fields with
  | nil => exact absurd rfl hcells
  | cons c cells ih =>
    obtain ⟨position', hquoted, hstart, hcell⟩ := h.cell hposition c
    cases cells with
    | nil =>
      exact ⟨position', _, fields, hquoted, fun hp => ⟨hstart hp, rfl⟩, rfl, by simpa using hcell⟩
    | cons c' cells =>
      obtain ⟨last, field', fields', hlast, hlastStart, heq, hrest⟩ :=
        ih (hcell.comma hquoted) (.inr rfl) (by simp)
      refine ⟨last, field', fields', hlast, ?_, ?_, ?_⟩
      · intro hp
        exact absurd (hlastStart hp).1 (by decide)
      · rw [heq, List.append_assoc]
        rfl
      · simp only [List.map_cons, List.intercalate_cons_cons, Text.toUtf8_append,
          List.foldl_append] at hrest ⊢
        exact hrest

/-- Reading a row of at least two fields adds it to the rows. -/
theorem Stands.writtenRow (h : Stands r .rowStart [] [] rows) {w : WrittenRow}
    (hw : 2 ≤ w.cells.length) :
    Stands ((Text.toUtf8 w.dense).foldl step r) .rowStart [] []
      (rows ++ [w.fields.map Text.toUtf8]) := by
  have hne : w.cells ≠ [] := by
    intro hnil
    simp [hnil] at hw
  obtain ⟨position, field, fields, hquoted, hstart, heq, hcells⟩ := h.cells (.inl rfl) hne
  have hstart : position ≠ .rowStart := by
    intro hp
    have := (hstart hp).2
    omega
  have := hcells.ending hquoted hstart w
  rw [heq, List.nil_append] at this
  rw [WrittenRow.dense, Text.toUtf8_append, List.foldl_append, WrittenRow.fields,
    WrittenRow.values, List.map_append, List.map_map]
  cases hw : w.trailingComma <;> simpa [hw] using this

end Reading

/-- The octets of written rows pass the sieve as the rows without the spaces before their fields. -/
theorem sift_writtenRows (ws : List WrittenRow) :
    LeadingSpace.sift .fieldStart (Text.toUtf8 (ws.flatMap WrittenRow.text)) =
      (Text.toUtf8 (ws.flatMap WrittenRow.dense), .fieldStart) := by
  induction ws with
  | nil => rfl
  | cons w ws ih =>
    rw [List.flatMap_cons, List.flatMap_cons, Text.toUtf8_append, Text.toUtf8_append,
      LeadingSpace.sift_append, sift_writtenRow, ih]

/-- Written rows are read back as their fields. -/
theorem rawRows_writtenRows {ws : List WrittenRow} (h : ∀ w ∈ ws, 2 ≤ w.cells.length)
    (ended : Bool) :
    (rawRows (Text.toUtf8 (ws.flatMap WrittenRow.dense)) ended).map RawRow.fields =
      ws.map fun w => w.fields.map Text.toUtf8 := by
  have run {r : Reading} {rows : List (List (List UInt8))}
      (hr : r.Stands .rowStart [] [] rows) :
      ((Text.toUtf8 (ws.flatMap WrittenRow.dense)).foldl Reading.step r).Stands .rowStart [] []
        (rows ++ ws.map fun w => w.fields.map Text.toUtf8) := by
    induction ws generalizing r rows with
    | nil => simpa using hr
    | cons w ws ih =>
      have := ih (fun w hw => h w (List.mem_cons_of_mem _ hw))
        (hr.writtenRow (h w List.mem_cons_self))
      rwa [List.append_assoc, ← List.foldl_append, ← Text.toUtf8_append] at this
  obtain ⟨hposition, -, -, hrows⟩ := run Reading.stands_start
  rw [rawRows, Reading.finish, if_pos hposition, ite_self, hrows, List.nil_append]

end ReplayLog.Table
