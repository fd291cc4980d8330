import Mathlib.Data.List.Forall2
import ReplayLog.Proofs.QuotedAgreement
import ReplayLog.Proofs.TableRoundTrip

/-! # Fields as they were written

Where the sieve and the grammar agree on what is quoted, the octets of a table are its fields one
behind the other: spaces and ends of line, the field, and the separator behind it. A quoted field is
what stands between its quotes, every octet of it, with doubled quotes as one. -/
namespace ReplayLog.Table
open LeadingSpace

structure Plain (bs : List UInt8) : Prop where
  separators : ∀ b ∈ bs, b ≠ 0x2C ∧ b ≠ 0x0D ∧ b ≠ 0x0A
  first : bs.head? ≠ some quote

/-- The octets before a field: spaces that are dropped, and ends of line. -/
def Lead (bs : List UInt8) : Prop := ∀ b ∈ bs, b = space ∨ b = 0x0D ∨ b = 0x0A

/-- The second octets are the field that the first ones write. What stands behind a closing quote
belongs to the field. -/
inductive AsWritten : List UInt8 → List UInt8 → Prop
  | bare {bs : List UInt8} (hbs : Plain bs) : AsWritten bs bs
  | quoted (bs : List UInt8) {tail : List UInt8} (htail : Plain tail) :
    AsWritten (quote :: (doubled quote bs ++ quote :: tail)) (bs ++ tail)

/-- The octets are the field with what stands before it and the separator behind it. -/
def Tile (tile field : List UInt8) : Prop :=
  ∃ lead body separator, tile = lead ++ body ++ [separator] ∧ Lead lead ∧ AsWritten body field ∧
    (separator = 0x2C ∨ separator = 0x0D ∨ separator = 0x0A)

/-- The octets are the field that the end of all octets ends, perhaps inside its quotes. -/
def LastTile (tile field : List UInt8) : Prop :=
  ∃ lead body, tile = lead ++ body ∧ Lead lead ∧
    (AsWritten body field ∨ body = quote :: doubled quote field)

/-- What stands before the first row: nothing, or the mark behind spaces. -/
def Front (bs : List UInt8) : Prop := bs = [] ∨ ∃ n, bs = List.replicate n space ++ mark

/-- The octets are the fields one behind the other, up to octets that complete no other field. -/
def HoldsFields (bs : List UInt8) (fields : List (List UInt8)) : Prop :=
  ∃ front tiles rest, bs = front ++ tiles.flatten ++ rest ∧ Front front ∧
    (List.Forall₂ Tile tiles fields ∨
      ∃ before last, fields = before ++ [last] ∧ List.Forall₂ Tile tiles before ∧
        LastTile rest last)

inductive Opened : Position → List UInt8 → List UInt8 → Prop
  | rowStart {lead : List UInt8} (hlead : Lead lead) : Opened .rowStart lead []
  | fieldStart {lead : List UInt8} (hlead : Lead lead) : Opened .fieldStart lead []
  | bare {lead bs : List UInt8} (hlead : Lead lead) (hbs : Plain bs) (hne : bs ≠ []) :
    Opened .bare (lead ++ bs) bs
  | quoted {lead : List UInt8} (hlead : Lead lead) (bs : List UInt8) :
    Opened .quoted (lead ++ quote :: doubled quote bs) bs
  | quoteInQuoted {lead : List UInt8} (hlead : Lead lead) (bs : List UInt8) :
    Opened .quoteInQuoted (lead ++ quote :: (doubled quote bs ++ [quote])) bs
  | behind {lead tail : List UInt8} (hlead : Lead lead) (bs : List UInt8) (htail : Plain tail)
    (hne : tail ≠ []) : Opened .bare (lead ++ quote :: (doubled quote bs ++ quote :: tail)) (bs ++ tail)

theorem plain_nil : Plain [] := ⟨nofun, nofun⟩

theorem Plain.concat {bs : List UInt8} (h : Plain bs) {b : UInt8}
    (hb : b ≠ 0x2C ∧ b ≠ 0x0D ∧ b ≠ 0x0A) (hfirst : bs = [] → b ≠ quote) : Plain (bs ++ [b]) := by
  refine ⟨?_, ?_⟩
  · rw [List.forall_mem_append, List.forall_mem_singleton]
    exact ⟨h.separators, hb⟩
  · cases bs with
    | nil => exact fun heq => hfirst rfl (Option.some.inj heq)
    | cons c bs => exact h.first

theorem lead_nil : Lead [] := nofun

theorem Lead.concat {bs : List UInt8} (h : Lead bs) {b : UInt8}
    (hb : b = space ∨ b = 0x0D ∨ b = 0x0A) : Lead (bs ++ [b]) := by
  rw [Lead, List.forall_mem_append, List.forall_mem_singleton]
  exact ⟨h, hb⟩

theorem doubled_concat (bs : List UInt8) {b : UInt8} (hb : b ≠ quote) :
    doubled quote (bs ++ [b]) = doubled quote bs ++ [b] := by
  rw [doubled_append]
  simp [doubled, hb]

theorem doubled_concat_quote (bs : List UInt8) :
    doubled quote (bs ++ [quote]) = doubled quote bs ++ [quote, quote] := doubled_append _ _ _

namespace Opened

variable {position : Position} {bs field : List UInt8}

theorem eq_nil_of_start (h : Opened position bs field)
    (hposition : position = .rowStart ∨ position = .fieldStart) : Lead bs ∧ field = [] := by
  cases h with
  | rowStart hlead => exact ⟨hlead, rfl⟩
  | fieldStart hlead => exact ⟨hlead, rfl⟩
  | _ => rcases hposition with h | h <;> cases h

theorem close (h : Opened position bs field) (hposition : position ≠ .quoted) :
    ∃ lead body, bs = lead ++ body ∧ Lead lead ∧ AsWritten body field := by
  cases h with
  | rowStart hlead => exact ⟨_, [], (List.append_nil _).symm, hlead, .bare plain_nil⟩
  | fieldStart hlead => exact ⟨_, [], (List.append_nil _).symm, hlead, .bare plain_nil⟩
  | bare hlead hbs => exact ⟨_, _, rfl, hlead, .bare hbs⟩
  | quoted => exact absurd rfl hposition
  | quoteInQuoted hlead =>
    have hbody := AsWritten.quoted field plain_nil
    rw [List.append_nil] at hbody
    exact ⟨_, _, rfl, hlead, hbody⟩
  | behind hlead bs htail => exact ⟨_, _, rfl, hlead, .quoted bs htail⟩

theorem tile (h : Opened position bs field) (hposition : position ≠ .quoted) {b : UInt8}
    (hb : b = 0x2C ∨ b = 0x0D ∨ b = 0x0A) : Tile (bs ++ [b]) field := by
  obtain ⟨lead, body, rfl, hlead, hbody⟩ := h.close hposition
  exact ⟨lead, body, b, rfl, hlead, hbody, hb⟩

theorem lastTile (h : Opened position bs field) : LastTile bs field := by
  by_cases hposition : position = .quoted
  · subst hposition
    cases h with
    | quoted hlead bs => exact ⟨_, _, rfl, hlead, .inr rfl⟩
  · obtain ⟨lead, body, rfl, hlead, hbody⟩ := h.close hposition
    exact ⟨lead, body, rfl, hlead, .inl hbody⟩

theorem push (h : Opened position bs field) {b : UInt8} (hb : b ≠ 0x2C ∧ b ≠ 0x0D ∧ b ≠ 0x0A)
    (hposition : position = .bare ∨ position ≠ .quoted ∧ b ≠ quote) :
    Opened .bare (bs ++ [b]) (field ++ [b]) := by
  have hone (hquote : b ≠ quote) : Plain ([] ++ [b]) := plain_nil.concat hb fun _ => hquote
  cases h with
  | rowStart hlead => exact .bare hlead (hone (by simpa using hposition)) (List.cons_ne_nil _ _)
  | fieldStart hlead => exact .bare hlead (hone (by simpa using hposition)) (List.cons_ne_nil _ _)
  | bare hlead hbs hne =>
    rw [List.append_assoc]
    exact .bare hlead (hbs.concat hb fun hnil => absurd hnil hne) (by simp)
  | quoted => simp at hposition
  | quoteInQuoted hlead =>
    rw [List.append_assoc, List.cons_append, List.append_assoc]
    exact .behind hlead field (hone (by simpa using hposition)) (List.cons_ne_nil _ _)
  | behind hlead bs htail hne =>
    rw [List.append_assoc, List.cons_append, List.append_assoc, List.cons_append, List.append_assoc]
    exact .behind hlead bs (htail.concat hb fun hnil => absurd hnil hne) (by simp)

end Opened

def Tiled (bs : List UInt8) (r : Reading) : Prop :=
  ∃ front tiles current position field fields rows,
    bs = front ++ tiles.flatten ++ current ∧ Front front ∧ r.Stands position field fields rows ∧
      List.Forall₂ Tile tiles (rows.flatten ++ fields) ∧ Opened position current field

namespace Tiled

variable {bs : List UInt8} {r : Reading}

theorem of_front {front : List UInt8} (h : Front front) : Tiled front Reading.start :=
  ⟨front, [], [], .rowStart, [], [], [], by simp, h, Reading.stands_start, .nil,
    .rowStart lead_nil⟩

theorem dropped (h : Tiled bs r) (hposition : r.position = .rowStart ∨ r.position = .fieldStart) :
    Tiled (bs ++ [space]) r := by
  obtain ⟨front, tiles, current, position, field, fields, rows, rfl, hfront, hr, htiles, hopen⟩ := h
  rw [hr.position] at hposition
  obtain ⟨hlead, hfield⟩ := hopen.eq_nil_of_start hposition
  refine ⟨front, tiles, current ++ [space], position, field, fields, rows,
    List.append_assoc _ _ _, hfront, hr, htiles, ?_⟩
  have hlonger := hlead.concat (b := space) (.inl rfl)
  rw [hfield]
  rcases hposition with rfl | rfl
  · exact .rowStart hlonger
  · exact .fieldStart hlonger

/-- An octet goes to the field at hand, or ends it. -/
theorem step (h : Tiled bs r) (b : UInt8) : Tiled (bs ++ [b]) (r.step b) := by
  obtain ⟨front, tiles, current, position, field, fields, rows, rfl, hfront, hr, htiles, hopen⟩ := h
  have stay {position' : Position} {field' : List UInt8}
      (hr' : (r.step b).Stands position' field' fields rows)
      (hopen' : Opened position' (current ++ [b]) field') :
      Tiled (front ++ tiles.flatten ++ current ++ [b]) (r.step b) :=
    ⟨front, tiles, current ++ [b], position', field', fields, rows, List.append_assoc _ _ _, hfront,
      hr', htiles, hopen'⟩
  have close {position' : Position} {fields' : List (List UInt8)} {rows' : List (List (List UInt8))}
      (hseparator : b = 0x2C ∨ b = 0x0D ∨ b = 0x0A) (hquoted : position ≠ .quoted)
      (hr' : (r.step b).Stands position' [] fields' rows')
      (hfields : rows'.flatten ++ fields' = rows.flatten ++ fields ++ [field])
      (hopen' : Opened position' [] []) :
      Tiled (front ++ tiles.flatten ++ current ++ [b]) (r.step b) := by
    refine ⟨front, tiles ++ [current ++ [b]], [], position', [], fields', rows', by simp, hfront,
      hr', ?_, hopen'⟩
    rw [hfields]
    exact List.rel_append htiles (.cons (hopen.tile hquoted hseparator) .nil)
  by_cases hquoted : position = .quoted
  · subst hquoted
    cases hopen with
    | quoted hlead =>
      by_cases hb : b = quote
      · subst hb
        refine stay hr.closeQuote ?_
        rw [List.append_assoc, List.cons_append]
        exact .quoteInQuoted hlead field
      · refine stay (hr.pushQuoted hb) ?_
        rw [List.append_assoc, List.cons_append, ← doubled_concat field hb]
        exact .quoted hlead _
  by_cases hcomma : b = 0x2C
  · subst hcomma
    exact close (.inl rfl) hquoted (hr.comma hquoted) (List.append_assoc _ _ _).symm
      (.fieldStart lead_nil)
  by_cases hend : b = 0x0D ∨ b = 0x0A
  · by_cases hstart : position = .rowStart
    · subst hstart
      obtain ⟨hlead, rfl⟩ := hopen.eq_nil_of_start (.inl rfl)
      exact stay (hr.skip hend) (.rowStart (hlead.concat (.inr hend)))
    · exact close (.inr hend) hquoted (hr.endOfRow hquoted hstart hend) (by simp)
        (.rowStart lead_nil)
  rw [not_or] at hend
  have hplain : b ≠ 0x2C ∧ b ≠ 0x0D ∧ b ≠ 0x0A := ⟨hcomma, hend⟩
  by_cases hb : b = quote
  · subst hb
    cases hopen with
    | rowStart hlead => exact stay (hr.openQuote (.inl rfl)) (.quoted hlead [])
    | fieldStart hlead => exact stay (hr.openQuote (.inr rfl)) (.quoted hlead [])
    | quoted => exact absurd rfl hquoted
    | quoteInQuoted hlead =>
      refine stay hr.pushQuote ?_
      rw [List.append_assoc, List.cons_append, List.append_assoc, List.singleton_append,
        ← doubled_concat_quote]
      exact .quoted hlead _
    | bare hlead hbs hne =>
      exact stay (hr.push hplain (.inl rfl)) ((Opened.bare hlead hbs hne).push hplain (.inl rfl))
    | behind hlead bs htail hne =>
      exact stay (hr.push hplain (.inl rfl)) ((Opened.behind hlead bs htail hne).push hplain (.inl rfl))
  · exact stay (hr.push hplain (.inr ⟨hquoted, hb⟩)) (hopen.push hplain (.inr ⟨hquoted, hb⟩))

/-- The end of the octets, if it is in view, ends the field at hand. -/
theorem holdsFields (h : Tiled bs r) (ended : Bool) :
    HoldsFields bs ((if ended then r.finish else r).rows.toList.flatMap RawRow.fields) := by
  obtain ⟨front, tiles, current, position, field, fields, rows, rfl, hfront, hr, htiles, hopen⟩ := h
  by_cases hend : ended = true ∧ position ≠ .rowStart
  · obtain ⟨rfl, hstart⟩ := hend
    rw [if_pos rfl, Reading.finish, hr.position, if_neg hstart, List.flatMap_def, hr.endRow.rows,
      List.flatten_concat, ← List.append_assoc]
    exact ⟨front, tiles, current, rfl, hfront, .inr ⟨_, _, rfl, htiles, hopen.lastTile⟩⟩
  · have hnone : (if ended then r.finish else r) = r := by
      cases ended with
      | false => rfl
      | true =>
        have hstart : position = .rowStart := by simpa using hend
        rw [if_pos rfl, Reading.finish, hr.position, if_pos hstart]
    rw [hnone, List.flatMap_def, hr.rows]
    refine ⟨front, tiles.take rows.flatten.length,
      (tiles.drop rows.flatten.length).flatten ++ current, ?_, hfront,
      .inl (List.forall₂_take_append _ _ _ htiles)⟩
    have hsplit : tiles.flatten = (tiles.take rows.flatten.length).flatten ++
        (tiles.drop rows.flatten.length).flatten := by
      rw [← List.flatten_append, List.take_append_drop]
    rw [hsplit]
    simp only [List.append_assoc]

end Tiled

/-- Inside a field the sieve keeps what is no separator. -/
theorem eq_of_sift_bare {bs kept : List UInt8} (h : (sift .bare bs).1 = kept)
    (hkept : ∀ b ∈ kept, b ≠ comma ∧ b ≠ newline) : bs = kept := by
  induction bs generalizing kept with
  | nil => exact h
  | cons b bs ih =>
    have hb : (sift .bare (b :: bs)).1 = b :: (sift (State.next .bare b) bs).1 := rfl
    rw [hb] at h
    subst h
    obtain ⟨hcomma, hnewline⟩ := hkept b List.mem_cons_self
    have hnext : State.next .bare b = .bare := by
      simp [State.next, State.next.unquoted, hcomma, hnewline]
    rw [hnext] at hkept ⊢
    exact congrArg _ (ih rfl fun b hb => hkept b (List.mem_cons_of_mem _ hb))

theorem exists_spaces_of_mark {bs : List UInt8} (h : (sift .fieldStart bs).1 = mark) :
    ∃ n, bs = List.replicate n space ++ mark := by
  induction bs with
  | nil => cases h
  | cons b bs ih =>
    by_cases hspace : b = space
    · subst hspace
      obtain ⟨n, rfl⟩ := ih h
      exact ⟨n + 1, rfl⟩
    · have hkeeps : State.keeps .fieldStart b = true := by simp [State.keeps, hspace]
      have hfirst : (sift .fieldStart (b :: bs)).1 = if State.keeps .fieldStart b then
          b :: (sift (State.next .fieldStart b) bs).1 else (sift (State.next .fieldStart b) bs).1 := rfl
      rw [hfirst, if_pos hkeeps] at h
      obtain ⟨rfl, hrest⟩ := List.cons.inj h
      have hbare : State.next .fieldStart 0xEF = .bare := rfl
      rw [hbare] at hrest
      rw [eq_of_sift_bare hrest (by simp [comma, newline])]
      exact ⟨0, rfl⟩

/-- Where nothing is misread, the octets are the fields that are read of them. -/
theorem tiled_of_not_misread {seen : Bool} {bs : List UInt8} (h : ¬Misread seen bs) :
    Tiled bs (readingOf seen bs) := by
  induction bs using List.reverseRecOn with
  | nil =>
    have hstart : readingOf seen [] = Reading.start := by cases seen <;> rfl
    rw [hstart]
    exact .of_front (.inl rfl)
  | append_singleton bs b ih =>
    have hbs : ¬Misread seen bs := fun hbs => h (hbs.mono (List.prefix_append _ _))
    have htiled := ih hbs
    by_cases hmark : AtMark seen (bs ++ [b])
    · rw [readingOf_of_atMark hmark]
      exact .of_front (.inr (exists_spaces_of_mark hmark.2))
    · rw [readingOf_concat hmark]
      split
      · exact htiled.step b
      · next hdropped =>
        rw [State.eq_space_of_dropped hdropped]
        exact htiled.dropped ((inStep_of_not_misread hbs).start_of_dropped hdropped)

/-- What the grammar is given: what passes of all octets, with the mark seen or not, or nothing. -/
theorem content_eq (reads : List (List UInt8)) (failure : Option String) :
    (content failure reads).1 = [] ∨
      ∃ seen, (content failure reads).1 = unmarked seen reads.flatten := by
  rw [content_of_first]
  split
  · exact .inl rfl
  · exact .inr ⟨_, rfl⟩

theorem mem_of_put {row : Row} {name value : Text} {cell : Text × Text}
    (h : cell ∈ row.put name value) : cell ∈ row ∨ cell.2 = value := by
  induction row with
  | nil => exact .inr (by rw [List.mem_singleton.1 h])
  | cons first row ih =>
    obtain ⟨n, v⟩ := first
    rw [Row.put] at h
    split at h
    · rcases List.mem_cons.1 h with rfl | h
      · exact .inr rfl
      · exact .inl (List.mem_cons_of_mem _ h)
    · rcases List.mem_cons.1 h with rfl | h
      · exact .inl List.mem_cons_self
      · exact (ih h).imp_left (List.mem_cons_of_mem _)

theorem mem_of_addCell {e : Encoding} {c : Text × List UInt8} {row row' : Row}
    (h : addCell e row c = .ok row') {cell : Text × Text} (hcell : cell ∈ row') :
    cell ∈ row ∨ decode e c.2 = .ok cell.2 := by
  rw [addCell] at h
  split at h
  · cases h
    exact .inl hcell
  · cases hvalue : decode e c.2 with
    | error fault =>
      rw [hvalue] at h
      cases h
    | ok value =>
      rw [hvalue] at h
      cases h
      exact (mem_of_put hcell).imp_right fun heq => by rw [heq]

theorem mem_of_foldlM_addCell {e : Encoding} {cells : List (Text × List UInt8)} {row row' : Row}
    (h : cells.foldlM (addCell e) row = .ok row') {cell : Text × Text} (hcell : cell ∈ row') :
    cell ∈ row ∨ ∃ c ∈ cells, decode e c.2 = .ok cell.2 := by
  induction cells generalizing row with
  | nil =>
    cases h
    exact .inl hcell
  | cons c cells ih =>
    rw [List.foldlM_cons] at h
    cases hnext : addCell e row c with
    | error fault =>
      rw [hnext] at h
      cases h
    | ok next =>
      rw [hnext] at h
      rcases ih h with hmem | ⟨c', hc', hdecode⟩
      · exact (mem_of_addCell hnext hmem).imp_right fun hdecode => ⟨c, List.mem_cons_self, hdecode⟩
      · exact .inr ⟨c', List.mem_cons_of_mem _ hc', hdecode⟩

theorem mem_of_decodeRow {t : Table} {r : RawRow} {row : Row} (h : t.decodeRow r = .ok row) :
    ∀ cell ∈ row, ∃ field ∈ r.fields, decode t.encoding field = .ok cell.2 := by
  intro cell hcell
  rcases mem_of_foldlM_addCell h hcell with hmem | ⟨c, hc, hdecode⟩
  · exact absurd hmem List.not_mem_nil
  · exact ⟨c.2, (List.of_mem_zip hc).2, hdecode⟩

theorem holdsFields_nil (bs : List UInt8) : HoldsFields bs [] :=
  ⟨[], [], bs, rfl, .inl rfl, .inl .nil⟩

theorem holdsFields_rawRows {bs : List UInt8} (h : ¬Misread true bs) (reads : List (List UInt8))
    (hreads : reads.flatten = (sift .fieldStart bs).1) (failure : Option String) (ended : Bool) :
    HoldsFields bs ((rawRows (content failure reads).1 ended).flatMap RawRow.fields) := by
  rcases content_eq reads failure with hnil | ⟨seen, hseen⟩
  · rw [hnil]
    cases ended <;> exact holdsFields_nil bs
  · have hmisread : ¬Misread seen bs := by
      cases seen with
      | true => exact h
      | false =>
        rintro ⟨p, hp, hbare, hreturned⟩
        exact h ⟨p, hp, hbare, hreturned.imp_right fun hmark => absurd hmark.1 (by decide)⟩
    rw [hseen, hreads]
    exact (tiled_of_not_misread hmisread).holdsFields ended

theorem exists_fields_of_ofSource {e : Encoding} {b : BufferedSource} {t : Table}
    (ht : ofSource e b = .ok t) (h : ¬Misread true b.bytes) :
    ∃ header names, header.mapM (decode e) = .ok names ∧ t.columns = names.map Text.trimEnd ∧
      HoldsFields b.bytes (header ++ t.rows.flatMap RawRow.fields) := by
  obtain ⟨reads, hdrain, hreads⟩ := Sieve.drain_eq (show readSize ≠ 0 by decide) (.ofSource b)
  have hholds := holdsFields_rawRows h reads hreads (Sieve.ofSource b).source.source.failure
  rw [ofSource, hdrain] at ht
  dsimp only at ht
  split at ht
  · cases ht
  · cases ht
    exact ⟨[], [], rfl, rfl, holdsFields_nil _⟩
  · next header rows hrows =>
    have hholds := hholds (content (Sieve.ofSource b).source.source.failure reads).2.isNone
    rw [hrows, List.flatMap_cons] at hholds
    cases hnames : header.fields.mapM (decode e) with
    | error fault =>
      rw [hnames] at ht
      cases ht
    | ok names =>
      rw [hnames] at ht
      cases ht
      exact ⟨header.fields, names, hnames, rfl, hholds⟩

/-- The sieve and the grammar agree on what is quoted in all octets but those that have a quote
behind a carriage return outside quotes, or behind the mark. Where they agree, no space inside quotes
is dropped, and every field that is read is what was written, octet by octet. -/
theorem quoted_as_written (bs : List UInt8) :
    ((∀ p, p <+: bs → ((sift .fieldStart p).2.InQuotes ↔ (readingOf true p).position.InQuotes)) ↔
      ¬Misread true bs) ∧
    (¬Misread true bs →
      (∀ p b, p ++ [b] <+: bs → (sift .fieldStart p).2.keeps b = false →
        ¬(readingOf true p).position.InQuotes) ∧
      ∀ (e : Encoding) (b : BufferedSource) (t : Table), b.bytes = bs → ofSource e b = .ok t →
        (∃ header names, header.mapM (decode e) = .ok names ∧ t.columns = names.map Text.trimEnd ∧
          HoldsFields bs (header ++ t.rows.flatMap RawRow.fields)) ∧
        ∀ r ∈ t.rows, ∀ row, t.decodeRow r = .ok row →
          ∀ cell ∈ row, ∃ field ∈ r.fields, decode t.encoding field = .ok cell.2) := by
  refine ⟨forall_inQuotes_iff bs, fun h => ⟨?_, ?_⟩⟩
  · intro p b hp hdropped hquoted
    have hbefore : ¬Misread true p := fun hmisread =>
      h (hmisread.mono ((List.prefix_append p [b]).trans hp))
    have hstart := (inStep_of_not_misread hbefore).start_of_dropped (b := b) (by simp [hdropped])
    rcases hstart with hstart | hstart <;>
      · rw [hstart] at hquoted
        exact absurd hquoted (by decide)
  · rintro e b t rfl ht
    exact ⟨exists_fields_of_ofSource ht h, fun r _ row hrow => mem_of_decodeRow hrow⟩

def quotedRow (lineEnd : String) : List UInt8 :=
  Text.toUtf8 ("a,b" ++ lineEnd ++ "\"c, d\",e\n").toList

/-- Behind a carriage return alone, the space inside the quotes is lost. -/
theorem misread_quotedRow :
    ¬(∀ p, p <+: quotedRow "\r" →
      ((sift .fieldStart p).2.InQuotes ↔ (readingOf true p).position.InQuotes)) ∧
    (ofSource .strict (.ofSource 64 (.ofReads [quotedRow "\r"] none))).toOption.map
      (fun t => t.rows.flatMap RawRow.fields) =
        some [Text.toUtf8 "c,d".toList, Text.toUtf8 "e".toList] := by
  have hmisread : Misread true (quotedRow "\r") := by decide +kernel
  exact ⟨fun h => (forall_inQuotes_iff _).1 h hmisread, by decide +kernel⟩

/-- Behind a carriage return and a line feed it is kept. -/
theorem quoted_as_written_quotedRow :
    let bs := quotedRow "\r\n"
    ¬Misread true bs ∧
    (∀ p, p <+: bs → ((sift .fieldStart p).2.InQuotes ↔ (readingOf true p).position.InQuotes)) ∧
    ∃ header, HoldsFields bs (header ++ [Text.toUtf8 "c, d".toList, Text.toUtf8 "e".toList]) := by
  intro bs
  have hread : ¬Misread true bs := by decide +kernel
  obtain ⟨hagree, hwritten⟩ := quoted_as_written bs
  have hrows : (ofSource .strict (.ofSource 64 (.ofReads [bs] none))).toOption.map
      (fun t => t.rows.flatMap RawRow.fields) =
        some [Text.toUtf8 "c, d".toList, Text.toUtf8 "e".toList] := by decide +kernel
  obtain ⟨t, ht, hfields⟩ := Option.map_eq_some_iff.1 hrows
  have htable : ofSource .strict (.ofSource 64 (.ofReads [bs] none)) = .ok t := by
    cases htable : ofSource .strict (.ofSource 64 (.ofReads [bs] none)) with
    | error fault =>
      rw [htable] at ht
      cases ht
    | ok t' =>
      rw [htable] at ht
      cases ht
      rfl
  obtain ⟨⟨header, -, -, -, hholds⟩, -⟩ := (hwritten hread).2 .strict _ t (by rfl) htable
  rw [hfields] at hholds
  exact ⟨hread, hagree.2 hread, header, hholds⟩

end ReplayLog.Table
