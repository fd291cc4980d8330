import Mathlib.Data.List.Forall2
import ReplayLog.Proofs.GrowingSource
import ReplayLog.Proofs.ReadingFaults

/-! # Lossy reading

Reading lossily goes on where reading strictly stops, and both read alike up to there. So a lossy
run writes what the strict run writes, and perhaps more, and if the strict run does not end at
octets that are not UTF-8, the two runs are the same run. -/
namespace ReplayLog

def ReadFault.IsNotUtf8 (fault : ReadFault) : Prop := ∃ f, fault = .notUtf8 f

def RunFault.IsNotUtf8 (fault : RunFault) : Prop := ∃ f, fault = .read (.notUtf8 f)

theorem RunFault.isNotUtf8_read_iff {fault : ReadFault} :
    IsNotUtf8 (.read fault) ↔ fault.IsNotUtf8 := by
  simp [IsNotUtf8, ReadFault.IsNotUtf8]

/-- The second computation forgives the faults of a kind: it never ends in one, and it gives what
the first one gives if that does not end in one. -/
structure Forgives {ε α : Type} (kind : ε → Prop) (x y : Except ε α) : Prop where
  spared : ∀ fault, y = .error fault → ¬ kind fault
  same : x = y ∨ ∃ fault, x = .error fault ∧ kind fault

namespace Forgives

variable {ε α β : Type} {kind : ε → Prop}

theorem refl {x : Except ε α} (h : ∀ fault, x = .error fault → ¬ kind fault) : Forgives kind x x :=
  ⟨h, .inl rfl⟩

theorem ok (a : α) : Forgives kind (.ok a : Except ε α) (.ok a) := .refl nofun

theorem bind {x y : Except ε α} {f g : α → Except ε β} (h : Forgives kind x y)
    (hf : ∀ a, Forgives kind (f a) (g a)) : Forgives kind (x >>= f) (y >>= g) := by
  constructor
  · intro fault hfault
    cases y with
    | error fault' =>
      cases hfault
      exact h.spared _ rfl
    | ok a => exact (hf a).spared fault hfault
  · rcases h.same with rfl | ⟨fault, rfl, hkind⟩
    · cases x with
      | error fault => exact .inl rfl
      | ok a => exact (hf a).same
    · exact .inr ⟨fault, rfl, hkind⟩

theorem map {x y : Except ε α} (h : Forgives kind x y) (f : α → β) :
    Forgives kind (x.map f) (y.map f) := by
  have hbind := h.bind (f := fun a => .ok (f a)) fun a => .ok (f a)
  cases x <;> cases y <;> exact hbind

theorem mapError {ε' : Type} {kind' : ε' → Prop} {x y : Except ε α} (h : Forgives kind x y)
    {f : ε → ε'} (hf : ∀ fault, kind' (f fault) ↔ kind fault) :
    Forgives kind' (x.mapError f) (y.mapError f) := by
  constructor
  · intro fault hfault
    cases y with
    | error fault' =>
      cases hfault
      exact mt (hf fault').1 (h.spared _ rfl)
    | ok a => cases hfault
  · rcases h.same with rfl | ⟨fault, rfl, hkind⟩
    · exact .inl rfl
    · exact .inr ⟨f fault, rfl, (hf fault).2 hkind⟩

theorem foldlM {f g : β → α → Except ε β} (hf : ∀ b a, Forgives kind (f b a) (g b a))
    (as : List α) (b : β) : Forgives kind (as.foldlM f b) (as.foldlM g b) := by
  induction as generalizing b with
  | nil => exact .ok b
  | cons a as ih =>
    rw [List.foldlM_cons, List.foldlM_cons]
    exact (hf b a).bind ih

theorem mapM {f g : α → Except ε β} (hf : ∀ a, Forgives kind (f a) (g a)) (as : List α) :
    Forgives kind (as.mapM f) (as.mapM g) := by
  induction as with
  | nil => exact .ok []
  | cons a as ih =>
    rw [List.mapM_cons, List.mapM_cons]
    exact (hf a).bind fun b => ih.bind fun bs => .ok _

end Forgives

namespace Utf8

/-- Octets without a fault are read lossily as they are read strictly. -/
theorem decodeLossyFrom_of_decodeFrom {seen t : Text} {index : Nat} {bs : List UInt8}
    (h : decodeFrom seen index bs = .ok t) : decodeLossyFrom seen bs = t := by
  fun_induction decodeFrom seen index bs with
  | case1 seen index =>
    cases h
    rw [decodeLossyFrom]
  | case2 seen index b bs c rest hsequence ih =>
    rw [decodeLossyFrom]
    split
    · next c' rest' hsequence' =>
      cases hsequence.symm.trans hsequence'
      exact ih h
    · next hsequence' => cases hsequence.symm.trans hsequence'
    · next hsequence' => cases hsequence.symm.trans hsequence'
  | case3 => cases h
  | case4 => cases h

end Utf8

theorem Encoding.decode_forgives (bs : List UInt8) :
    Forgives (fun _ => True) (decode .strict bs) (decode .lossy bs) := by
  refine ⟨nofun, ?_⟩
  cases h : decode .strict bs with
  | error fault => exact .inr ⟨fault, rfl, trivial⟩
  | ok t => exact .inl (congrArg Except.ok (Utf8.decodeLossyFrom_of_decodeFrom h).symm)

theorem physicalLines_forgives (bs : List UInt8) (failure : Option String) :
    List.Forall₂ (Forgives ReadFault.IsNotUtf8) (physicalLines .strict bs failure)
      (physicalLines .lossy bs failure) := by
  have htext (piece : List UInt8) : Forgives ReadFault.IsNotUtf8
      ((Encoding.decode .strict piece).mapError .notUtf8)
      ((Encoding.decode .lossy piece).mapError .notUtf8) :=
    (Encoding.decode_forgives piece).mapError fun fault => by simp [ReadFault.IsNotUtf8]
  simp only [physicalLines]
  refine List.rel_append ?_ ?_
  · rw [List.forall₂_map_left_iff, List.forall₂_map_right_iff, List.forall₂_same]
    intro piece _
    exact htext _
  · cases failure with
    | some reason =>
      refine .cons (.refl ?_) .nil
      rintro fault hfault ⟨f, rfl⟩
      cases hfault
    | none =>
      dsimp only
      split
      · exact .nil
      · exact .cons (htext _) .nil

theorem lines_forgives (b : BufferedSource) :
    List.Forall₂ (Forgives ReadFault.IsNotUtf8) (b.lines .strict) (b.lines .lossy) := by
  rw [lines_eq_physicalLines, lines_eq_physicalLines]
  exact physicalLines_forgives _ _

namespace Table

theorem decode_forgives (bs : List UInt8) :
    Forgives RunFault.IsNotUtf8 (decode .strict bs) (decode .lossy bs) :=
  (Encoding.decode_forgives bs).mapError fun fault => by simp [RunFault.IsNotUtf8]

theorem decodeRow_forgives (columns : List Text) (rows : List RawRow) (failure : Option String)
    (r : RawRow) :
    Forgives RunFault.IsNotUtf8 (decodeRow ⟨.strict, columns, rows, failure⟩ r)
      (decodeRow ⟨.lossy, columns, rows, failure⟩ r) := by
  refine .foldlM (fun row cell => ?_) _ _
  rw [addCell, addCell]
  split
  · exact .ok row
  · exact (decode_forgives _).map _

theorem items_forgives (columns : List Text) (rows : List RawRow) (failure : Option String) :
    List.Forall₂ (Forgives RunFault.IsNotUtf8) (items ⟨.strict, columns, rows, failure⟩)
      (items ⟨.lossy, columns, rows, failure⟩) := by
  rw [items, items]
  refine List.rel_append ?_ ?_
  · rw [List.forall₂_map_left_iff, List.forall₂_map_right_iff, List.forall₂_same]
    intro r _
    exact (decodeRow_forgives columns rows failure r).map _
  · cases failure with
    | some reason =>
      refine .cons (.refl ?_) .nil
      rintro fault hfault ⟨f, rfl⟩
      cases hfault
    | none => exact .nil

/-- Only the names of the columns and the cells of the rows are decoded. -/
theorem exists_header (b : BufferedSource) :
    ∃ (header : Encoding → Except RunFault (List Text)) (rows : List RawRow)
      (failure : Option String),
      Forgives RunFault.IsNotUtf8 (header .strict) (header .lossy) ∧
      ∀ e, ofSource e b = (header e).map fun names => ⟨e, names, rows, failure⟩ := by
  simp only [ofSource]
  generalize (LeadingSpace.Sieve.ofSource b).drain readSize = drained
  obtain ⟨reads, stopped⟩ := drained
  dsimp only
  generalize content stopped reads = held
  obtain ⟨bs, failure⟩ := held
  dsimp only
  generalize rawRows bs failure.isNone = rows
  cases rows with
  | nil =>
    cases failure with
    | some reason =>
      refine ⟨fun _ => .error _, [], none, .refl ?_, fun e => rfl⟩
      rintro fault hfault ⟨f, rfl⟩
      cases hfault
    | none => exact ⟨fun _ => .ok [], [], none, .ok [], fun e => rfl⟩
  | cons first rows =>
    refine ⟨fun e => (first.fields.mapM (decode e)).map (List.map Text.trimEnd), rows, failure,
      (Forgives.mapM decode_forgives _).map _, fun e => ?_⟩
    dsimp only
    cases first.fields.mapM (decode e) <;> rfl

end Table

namespace Cut

variable {ε α : Type} {kind : ε → Prop}

/-- The second list forgives where the first one may break off. -/
structure BreaksOff (kind : ε → Prop) (front whole : List α × Option ε) : Prop where
  spared : ∀ fault, whole.2 = some fault → ¬ kind fault
  same : front = whole ∨ front.1 <+: whole.1 ∧ ∃ fault, front.2 = some fault ∧ kind fault

theorem readable_breaksOff {items items' : List (Except ε α)}
    (h : List.Forall₂ (Forgives kind) items items') :
    BreaksOff kind (readable items) (readable items') := by
  induction h with
  | nil => exact ⟨nofun, .inl rfl⟩
  | @cons item item' items items' hitem hitems ih =>
    cases item' with
    | error fault =>
      have hkind := hitem.spared fault rfl
      refine ⟨?_, ?_⟩
      · intro fault' hfault
        cases hfault
        exact hkind
      · rcases hitem.same with rfl | ⟨fault', rfl, hkind'⟩
        · exact .inl rfl
        · exact .inr ⟨List.nil_prefix, fault', rfl, hkind'⟩
    | ok a =>
      refine ⟨ih.spared, ?_⟩
      rcases hitem.same with rfl | ⟨fault', rfl, hkind'⟩
      · rcases ih.same with heq | ⟨hfront, hfault⟩
        · left
          rw [readable, readable, heq]
        · exact .inr ⟨List.cons_prefix_cons.2 ⟨rfl, hfront⟩, hfault⟩
      · exact .inr ⟨List.nil_prefix, fault', rfl, hkind'⟩

end Cut

/-- The second feed forgives octets that are not UTF-8, where the first one breaks off. -/
structure Feed.BreaksOff {α : Type} (front whole : Feed α) : Prop where
  spared : ∀ fault, whole.ending = .failed fault → ¬ fault.IsNotUtf8
  same : front = whole ∨ front.arrivals <+: whole.arrivals ∧
    ∃ fault, front.ending = .failed fault ∧ fault.IsNotUtf8

namespace Cut

variable {rule : SegmentRule} {opens : Text → Bool}

/-- Lines behind the first one that carries its entry over a limit do not count. -/
theorem feed_append_of_firstExcess? {lines : List Text} {found : Nat × RunFault}
    (h : firstExcess? rule opens lines = some found) (more : List Text)
    (failure failure' : Option ReadFault) :
    feed rule opens (lines ++ more) failure = feed rule opens lines failure' := by
  obtain ⟨n, fault⟩ := found
  have hn := (exists_of_firstExcess? h).1
  simp only [feed, h, firstExcess?_append h]
  rw [List.take_append_of_le_length (Nat.le_of_lt hn)]

theorem ofEntries_breaksOff (hrule : rule.boundary = .marked opens)
    {items items' : List (Except ReadFault Text)}
    (hitems : List.Forall₂ (Forgives ReadFault.IsNotUtf8) items items') :
    Feed.BreaksOff (Feed.ofEntries rule items) (Feed.ofEntries rule items') := by
  have h := readable_breaksOff hitems
  rw [ofEntries_eq_feed hrule, ofEntries_eq_feed hrule]
  generalize readable items = front at h
  generalize readable items' = whole at h
  constructor
  · intro fault hfault
    rcases ending_feed hfault with ⟨line, limit, rfl⟩ | ⟨f, hf, rfl⟩
    · rintro ⟨f, hf⟩
      cases hf
    · rw [RunFault.isNotUtf8_read_iff]
      exact h.spared f hf
  · rcases h.same with rfl | ⟨hfront, fault, hfault, hkind⟩
    · exact .inl rfl
    · obtain ⟨more, hmore⟩ := hfront
      rw [← hmore, List.map_append]
      cases hfirst : firstExcess? rule opens (front.1.map Text.trim) with
      | some found => exact .inl (feed_append_of_firstExcess? hfirst _ _ _).symm
      | none =>
        have harrivals := (@feed_broken rule opens (front.1.map Text.trim) none fault).1
        rw [Option.none_or, ← hfault] at harrivals
        refine .inr ⟨harrivals ▸ arrivals_feed_mono _ _ _, .read fault, ?_,
          RunFault.isNotUtf8_read_iff.2 hkind⟩
        simp only [feed, hfirst, hfault]

theorem ofLines_breaksOff {items items' : List (Except ReadFault Text)}
    (hitems : List.Forall₂ (Forgives ReadFault.IsNotUtf8) items items') :
    Feed.BreaksOff (Feed.ofLines items) (Feed.ofLines items') := by
  have h := readable_breaksOff hitems
  rw [ofLines_eq_lineFeed, ofLines_eq_lineFeed]
  generalize readable items = front at h
  generalize readable items' = whole at h
  constructor
  · intro fault hfault
    obtain ⟨lines, failure⟩ := whole
    cases failure with
    | none => cases hfault
    | some f =>
      cases hfault
      rw [RunFault.isNotUtf8_read_iff]
      exact h.spared f rfl
  · rcases h.same with rfl | ⟨hfront, fault, hfault, hkind⟩
    · exact .inl rfl
    · obtain ⟨more, hmore⟩ := hfront
      rw [← hmore, List.map_append]
      refine .inr ⟨arrivals_lineFeed_mono _ _ _, .read fault, ?_,
        RunFault.isNotUtf8_read_iff.2 hkind⟩
      simp only [lineFeed, hfault]

/-- A header that cannot be read leaves no row. -/
theorem ofTable_breaksOff (b : BufferedSource) :
    Feed.BreaksOff (Feed.ofTable (Table.ofSource .strict b))
      (Feed.ofTable (Table.ofSource .lossy b)) := by
  obtain ⟨header, rows, failure, hheader, htable⟩ := Table.exists_header b
  have hitems (names : List Text) :=
    readable_breaksOff (Table.items_forgives names rows failure)
  rw [ofTable_eq_rowFeed, ofTable_eq_rowFeed, htable, htable]
  constructor
  · intro fault hfault
    cases hlossy : header .lossy with
    | error f =>
      rw [hlossy] at hfault
      cases hfault
      exact hheader.spared _ hlossy
    | ok names =>
      simp only [hlossy, Except.map, rowFeed] at hfault
      split at hfault
      · next f hf =>
        cases hfault
        exact (hitems names).spared _ hf
      · cases hfault
  · rcases hheader.same with heq | ⟨fault, hfault, hkind⟩
    · rw [heq]
      cases header .lossy with
      | error fault => exact .inl rfl
      | ok names =>
        simp only [Except.map, rowFeed]
        rcases (hitems names).same with heq | ⟨hfront, fault, hfault, hkind⟩
        · rw [heq]
          exact .inl rfl
        · rw [hfault]
          exact .inr ⟨hfront.map _, fault, rfl, hkind⟩
    · rw [hfault]
      exact .inr ⟨List.nil_prefix, fault, rfl, hkind⟩

end Cut

/-- No entry stops a run by its octets. -/
theorem Verdict.not_isNotUtf8_of_halt? {v : Verdict} {fault : RunFault}
    (h : v.halt? = some (.fault fault)) : ¬ fault.IsNotUtf8 := by
  rintro ⟨f, rfl⟩
  rw [halt?] at h
  split at h <;> cases h

namespace Progress

variable {α : Type} {c : Converter α} {p : Progress}

theorem takeAll_append (as more : List (Arrival α)) :
    p.takeAll c (as ++ more) = match p.takeAll c as with
      | (.ok (), p) => p.takeAll c more
      | (.error stop, p) => (.error stop, p) := by
  induction as generalizing p with
  | nil => rfl
  | cons a as ih =>
    rw [List.cons_append, takeAll, takeAll]
    rcases p.take c a with ⟨stop | -, q⟩
    · rfl
    · exact ih

/-- A run over the feed that breaks off ends there or is the run over the other feed. -/
theorem close_takeFeed_breaksOff {front whole : Feed α} (h : front.BreaksOff whole)
    (hw : p.writer.sink.Unlimited) :
    close (p.takeFeed c front) = close (p.takeFeed c whole) ∨
      ∃ fault, (close (p.takeFeed c front)).1 = .error (.fault fault) ∧ fault.IsNotUtf8 := by
  rcases h.same with rfl | ⟨⟨more, hmore⟩, fault, hending, hkind⟩
  · exact .inl rfl
  · obtain ⟨q, htaken, hadvanced⟩ := takeAll_advanced c p hw front.arrivals
    rw [takeFeed, takeFeed, ← hmore, takeAll_append, htaken]
    cases List.findSome? Verdict.halt?
        (front.arrivals.map fun a => ⟨a.startLine, c.render a.entry, c.convert a.entry⟩) with
    | some halt => exact .inl rfl
    | none =>
      right
      obtain ⟨r, hclose, -⟩ := close_advanced (l := c.layout) (p := q.atLine front.linesRead)
        (.error (.fault fault)) hadvanced.unlimited
      refine ⟨fault, ?_, hkind⟩
      dsimp only
      rw [hending]
      exact congrArg Prod.fst hclose

/-- A run over the feed that forgives does not end at octets. -/
theorem close_takeFeed_spared {front whole : Feed α} (h : front.BreaksOff whole)
    (hw : p.writer.sink.Unlimited) {fault : RunFault}
    (hresult : (close (p.takeFeed c whole)).1 = .error (.fault fault)) : ¬ fault.IsNotUtf8 := by
  obtain ⟨q, hclose, -⟩ := takeFeed_account c p hw whole
  rw [hclose, Account.result] at hresult
  cases hfirst : (Account.ofFeed c whole).verdicts.findSome? Verdict.halt? with
  | some halt =>
    rw [hfirst] at hresult
    cases hresult
    obtain ⟨v, -, hv⟩ := List.exists_of_findSome?_eq_some hfirst
    exact v.not_isNotUtf8_of_halt? hv
  | none =>
    rw [hfirst, Account.ofFeed, Option.none_or] at hresult
    cases hending : whole.ending with
    | failed f =>
      rw [hending] at hresult
      cases hresult
      exact h.spared _ hending
    | finished preamble dropped =>
      rw [hending] at hresult
      cases hresult

theorem text_takeFeed_breaksOff {front whole : Feed α} (h : front.BreaksOff whole)
    (hw : p.writer.sink.Unlimited) :
    (close (p.takeFeed c front)).2.writer.sink.text <+:
      (close (p.takeFeed c whole)).2.writer.sink.text := by
  have harrivals : front.arrivals <+: whole.arrivals := by
    rcases h.same with rfl | ⟨hfront, -⟩
    · exact List.prefix_refl _
    · exact hfront
  have htext : (Account.ofFeed c front).text <+: (Account.ofFeed c whole).text :=
    Account.text_mono rfl (Account.verdicts_mono c harrivals)
  obtain ⟨q, hclose, hadvanced⟩ := takeFeed_account c p hw front
  obtain ⟨q', hclose', hadvanced'⟩ := takeFeed_account c p hw whole
  rw [hclose, hclose', hadvanced.text, hadvanced'.text, List.prefix_append_right_inj]
  exact htext

end Progress

namespace Settings

def reading (s : Settings) (e : Encoding) : Settings := { s with encoding := e }

/-- In either encoding a source is converted in one way, and the feed that is read lossily forgives
the octets where the one that is read strictly breaks off. -/
theorem exists_feeds (s : Settings) (b : BufferedSource) :
    ∃ (α : Type) (c : Converter α) (feed : Encoding → Feed α),
      (∀ (e : Encoding) (p : Progress), (s.reading e).takeSource b p = p.takeFeed c (feed e)) ∧
      (feed .strict).BreaksOff (feed .lossy) := by
  have hlines := lines_forgives b
  cases hdialect : s.dialect with
  | accessLog =>
    refine ⟨_, .ofEntries AccessLog.layout (AccessLog.convert s.zone s.schema),
      fun e => .ofEntries (s.segmentRule AccessLog.boundary) (b.lines e), fun e p => ?_,
      Cut.ofEntries_breaksOff rfl hlines⟩
    rw [takeSource, reading, hdialect]
    rfl
  | nodeLog =>
    refine ⟨_, .ofEntries NodeLog.layout (NodeLog.convert s.zone),
      fun e => .ofEntries (s.segmentRule NodeLog.boundary) (b.lines e), fun e p => ?_,
      Cut.ofEntries_breaksOff rfl hlines⟩
    rw [takeSource, reading, hdialect]
    rfl
  | sqlAudit =>
    refine ⟨_, .ofEvents SqlAudit.layout (SqlAudit.convert s.zone),
      fun e => .ofLines (b.lines e), fun e p => ?_, Cut.ofLines_breaksOff hlines⟩
    rw [takeSource, reading, hdialect]
  | serviceAudit =>
    refine ⟨_, .ofEvents ServiceAudit.layout ServiceAudit.convert,
      fun e => .ofLines (b.lines e), fun e p => ?_, Cut.ofLines_breaksOff hlines⟩
    rw [takeSource, reading, hdialect]
  | serviceExport =>
    refine ⟨_, .ofRows ServiceAudit.layout (ServiceExport.convert s.zone),
      fun e => .ofTable (Table.ofSource e b), fun e p => ?_, Cut.ofTable_breaksOff b⟩
    rw [takeSource, reading, hdialect]

/-- What a strict run writes stands at the front of what the lossy run writes. Unless the strict run
ends at octets that are not UTF-8, the two runs have the same result, counts and text; the lossy run
never ends there. -/
theorem lossy_extends_strict (s : Settings) (b : BufferedSource) (w : Writer)
    (hw : w.sink.Unlimited) :
    let strict := (s.reading .strict).run b w
    let lossy := (s.reading .lossy).run b w
    strict.2.writer.sink.text <+: lossy.2.writer.sink.text ∧
      ((∀ f, strict.1 ≠ .error (.fault (.read (.notUtf8 f)))) → strict = lossy) ∧
      ∀ f, lossy.1 ≠ .error (.fault (.read (.notUtf8 f))) := by
  intro strict lossy
  obtain ⟨α, c, feed, htake, hfeeds⟩ := s.exists_feeds b
  let p : Progress := ⟨{}, w, #[]⟩
  replace hw : p.writer.sink.Unlimited := hw
  have hstrict : strict = Progress.close (p.takeFeed c (feed .strict)) :=
    congrArg Progress.close (htake .strict p)
  have hlossy : lossy = Progress.close (p.takeFeed c (feed .lossy)) :=
    congrArg Progress.close (htake .lossy p)
  rw [hstrict, hlossy]
  refine ⟨Progress.text_takeFeed_breaksOff hfeeds hw, ?_, ?_⟩
  · intro hend
    rcases Progress.close_takeFeed_breaksOff hfeeds hw with heq | ⟨fault, hfault, f, rfl⟩
    · exact heq
    · exact absurd hfault (hend f)
  · intro f hf
    exact Progress.close_takeFeed_spared hfeeds hw hf ⟨f, rfl⟩

def eventsEndingIn (octets : List UInt8) : BufferedSource :=
  let others := "\",\"origin_time\":\"1\",\"thread_id\":\"7\",\"latency\":\"3\",\"db\":\"d\"," ++
    "\"user\":\"u\"\x7d\n"
  .ofSource 64 (.ofReads [Text.toUtf8 ("\x7b\"sql\":\"a" ++ others ++ "\x7b\"sql\":\"b").toList,
    octets, Text.toUtf8 others.toList] none)

/-- An octet that begins no sequence ends the strict run in the second event, and the lossy run goes
on; the two octets of a character make no difference. -/
theorem lossy_extends_strict_eventsEndingIn :
    let s : Settings := { dialect := .serviceAudit, zone := .fixed 0 }
    let w : Writer := ⟨{}, 1, 0⟩
    w.sink.Unlimited ∧
      ((s.reading .strict).run (eventsEndingIn [0xFF]) w).1 =
        .error (.fault (.read (.notUtf8 (.broken 1 9)))) ∧
      ((s.reading .lossy).run (eventsEndingIn [0xFF]) w).1 = .ok () ∧
      ((s.reading .strict).run (eventsEndingIn [0xFF]) w).2.writer.sink.text <+:
        ((s.reading .lossy).run (eventsEndingIn [0xFF]) w).2.writer.sink.text ∧
      (s.reading .strict).run (eventsEndingIn [0xC3, 0xA9]) w =
        (s.reading .lossy).run (eventsEndingIn [0xC3, 0xA9]) w := by
  intro s w
  have hw : w.sink.Unlimited := ⟨rfl, rfl⟩
  have hresult : ((s.reading .strict).run (eventsEndingIn [0xC3, 0xA9]) w).1 = .ok () :=
    (run_text _ _ hw).1.trans (by decide +kernel)
  refine ⟨hw, (run_text _ _ hw).1.trans (by decide +kernel),
    (run_text _ _ hw).1.trans (by decide +kernel),
    (lossy_extends_strict s (eventsEndingIn [0xFF]) w hw).1,
    (lossy_extends_strict s (eventsEndingIn [0xC3, 0xA9]) w hw).2.1 ?_⟩
  intro f hf
  cases hresult.symm.trans hf

end Settings
end ReplayLog
