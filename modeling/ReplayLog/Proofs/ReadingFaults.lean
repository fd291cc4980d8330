import ReplayLog.Proofs.RunAccount

/-! # Faults of reading

What ends the feed of a source, whichever dialect it is of, is that it cannot be read on or that an
entry grows too large. The sink has no part in it. -/
namespace ReplayLog

/-- A fault of reading: the sink has no part in it. -/
def RunFault.FromSource (fault : RunFault) : Prop := ∀ reason, fault ≠ .write reason

theorem RunFault.fromSource_read (fault : ReadFault) : FromSource (.read fault) := by
  intro reason h
  cases h

theorem RunFault.fromSource_malformed (line : Nat) (entry : Text) (fault : EntryFault) :
    FromSource (.malformed line entry fault) := by
  intro reason h
  cases h

theorem RunFault.fromSource_tooLarge (line : Nat) (limit : Limit) :
    FromSource (.tooLarge line limit) := by
  intro reason h
  cases h

def Ending.fault? : Ending → Option RunFault
  | failed fault => some fault
  | finished _ _ => none

theorem Ending.fault?_eq_some_iff {ending : Ending} {fault : RunFault} :
    ending.fault? = some fault ↔ ending = .failed fault := by
  cases ending <;> simp [fault?]

def ReadsOnly {α : Type} (x : Except RunFault α) : Prop :=
  ∀ fault, x = .error fault → fault.FromSource

namespace ReadsOnly

variable {α β : Type}

theorem ok (a : α) : ReadsOnly (.ok a) := nofun

theorem bind {x : Except RunFault α} {f : α → Except RunFault β} (hx : ReadsOnly x)
    (hf : ∀ a, ReadsOnly (f a)) : ReadsOnly (x >>= f) := by
  intro fault h
  cases x with
  | error fault' =>
    cases h
    exact hx _ rfl
  | ok a => exact hf a fault h

theorem map {x : Except RunFault α} (hx : ReadsOnly x) (f : α → β) : ReadsOnly (x.map f) := by
  intro fault h
  cases x with
  | error fault' =>
    cases h
    exact hx _ rfl
  | ok a => cases h

theorem foldlM {f : β → α → Except RunFault β} (hf : ∀ b a, ReadsOnly (f b a)) (as : List α)
    (b : β) : ReadsOnly (as.foldlM f b) := by
  induction as generalizing b with
  | nil => exact .ok b
  | cons a as ih =>
    rw [List.foldlM_cons]
    exact .bind (hf b a) ih

theorem mapM {f : α → Except RunFault β} (hf : ∀ a, ReadsOnly (f a)) (as : List α) :
    ReadsOnly (as.mapM f) := by
  induction as with
  | nil => exact .ok []
  | cons a as ih =>
    rw [List.mapM_cons]
    exact .bind (hf a) fun b => .bind ih fun bs => .ok _

end ReadsOnly

namespace Table

theorem readsOnly_decode (e : Encoding) (bs : List UInt8) : ReadsOnly (decode e bs) := by
  intro fault h
  rw [decode] at h
  cases hd : e.decode bs with
  | ok t =>
    rw [hd] at h
    cases h
  | error f =>
    rw [hd] at h
    cases h
    exact RunFault.fromSource_read _

theorem readsOnly_decodeRow (t : Table) (r : RawRow) : ReadsOnly (t.decodeRow r) := by
  refine .foldlM (fun row cell => ?_) _ _
  rw [addCell]
  split
  · exact .ok row
  · exact (readsOnly_decode _ _).map _

theorem readsOnly_ofSource (e : Encoding) (b : BufferedSource) :
    ReadsOnly (Table.ofSource e b) := by
  rw [Table.ofSource]
  dsimp only
  split
  · intro fault h
    cases h
    exact RunFault.fromSource_malformed _ _ _
  · exact .ok _
  · exact .bind (.mapM (readsOnly_decode e) _) fun names => .ok _

theorem fromSource_of_items {t : Table} {fault : RunFault} (h : .error fault ∈ t.items) :
    fault.FromSource := by
  rw [items, List.mem_append, List.mem_map] at h
  rcases h with ⟨r, -, hr⟩ | h
  · exact (readsOnly_decodeRow t r).map _ fault hr
  · split at h
    · cases List.mem_singleton.1 h
      exact RunFault.fromSource_malformed _ _ _
    · exact absurd h List.not_mem_nil

end Table

namespace Cut

theorem mem_of_readable {ε α : Type} {items : List (Except ε α)} {fault : ε}
    (h : (readable items).2 = some fault) : .error fault ∈ items := by
  induction items with
  | nil => cases h
  | cons item items ih =>
    cases item with
    | error f =>
      cases h
      exact List.mem_cons_self
    | ok a => exact List.mem_cons_of_mem _ (ih h)

theorem fromSource_of_rowFeed {table : Except RunFault Table} (htable : ReadsOnly table)
    {fault : RunFault} (h : (rowFeed (table.map Table.items)).ending = .failed fault) :
    fault.FromSource := by
  cases table with
  | error f =>
    cases h
    exact htable _ rfl
  | ok t =>
    simp only [Except.map, rowFeed] at h
    cases hfault : (readable t.items).2 with
    | none =>
      rw [hfault] at h
      cases h
    | some f =>
      rw [hfault] at h
      cases h
      exact Table.fromSource_of_items (mem_of_readable hfault)

theorem exists_of_firstExcess? {rule : SegmentRule} {opens : Text → Bool} {lines : List Text}
    {n : Nat} {fault : RunFault}
    (h : firstExcess? rule opens lines = some (n, fault)) :
    n < lines.length ∧ ∃ line limit, fault = .tooLarge line limit := by
  obtain ⟨k, hk, hfound⟩ := List.exists_of_findSome?_eq_some h
  obtain ⟨f, hf, he⟩ := Option.map_eq_some_iff.1 hfound
  cases he
  refine ⟨List.mem_range.1 hk, ?_⟩
  rw [excess?, Option.bind_eq_some_iff] at hf
  obtain ⟨e, -, hf⟩ := hf
  split at hf
  · obtain ⟨limit, -, hlimit⟩ := Option.map_eq_some_iff.1 hf
    exact ⟨e.startLine, limit, hlimit.symm⟩
  · cases hf

/-- A feed ends in a fault of its size, in the failure of its source or at the end. -/
theorem ending_feed {rule : SegmentRule} {opens : Text → Bool} {lines : List Text}
    {failure : Option ReadFault} {fault : RunFault}
    (h : (feed rule opens lines failure).ending = .failed fault) :
    (∃ line limit, fault = .tooLarge line limit) ∨ ∃ f, failure = some f ∧ fault = .read f := by
  cases hfirst : firstExcess? rule opens lines with
  | some found =>
    simp only [feed, hfirst] at h
    cases h
    exact .inl (exists_of_firstExcess? hfirst).2
  | none =>
    cases failure with
    | some f =>
      simp only [feed, hfirst] at h
      cases h
      exact .inr ⟨f, rfl, rfl⟩
    | none =>
      simp only [feed, hfirst] at h
      split at h <;> cases h

theorem fromSource_of_feed {rule : SegmentRule} {opens : Text → Bool} {lines : List Text}
    {failure : Option ReadFault} {fault : RunFault}
    (h : (feed rule opens lines failure).ending = .failed fault) : fault.FromSource := by
  rcases ending_feed h with ⟨line, limit, rfl⟩ | ⟨f, -, rfl⟩
  · exact RunFault.fromSource_tooLarge _ _
  · exact RunFault.fromSource_read _

theorem fromSource_of_lineFeed {lines : List Text} {failure : Option ReadFault} {fault : RunFault}
    (h : (lineFeed lines failure).ending = .failed fault) : fault.FromSource := by
  cases failure with
  | some f =>
    cases h
    exact RunFault.fromSource_read _
  | none => cases h

end Cut

/-- What ends the account of a source is a fault of reading. -/
theorem Settings.fromSource_of_stop {s : Settings} {b : BufferedSource} {fault : RunFault}
    (h : (s.account b).stop = some fault) : fault.FromSource := by
  rw [account] at h
  generalize s.dialect = d at h
  cases d with
  | accessLog | nodeLog => exact Cut.fromSource_of_feed (Ending.fault?_eq_some_iff.1 h)
  | sqlAudit | serviceAudit => exact Cut.fromSource_of_lineFeed (Ending.fault?_eq_some_iff.1 h)
  | serviceExport =>
    exact Cut.fromSource_of_rowFeed (Table.readsOnly_ofSource _ _) (Ending.fault?_eq_some_iff.1 h)

end ReplayLog
