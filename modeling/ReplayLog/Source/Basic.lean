/-! # Sources

A source hands out its bytes in reads of its own choosing, then ends or fails once. A buffered source
holds what was read but not yet taken and asks for at most its capacity at a time. An empty read
means the end, so a buffer without capacity sees no byte of its source, though it sees a source that
fails at once. Only a reader that asks for no less than the capacity is served by the source
itself. -/
namespace ReplayLog

/-- What a source will hand out. -/
structure Source where
  /-- The bytes of the reads to come. -/
  reads : List (List UInt8)
  /-- No read is empty before the end. -/
  ne_nil : ∀ bytes ∈ reads, bytes ≠ []
  /-- The words of the one failure in the place of the end, if there is one. -/
  failure : Option String

namespace Source

/-- The source that hands out the reads, empty ones left out. -/
def ofReads (reads : List (List UInt8)) (failure : Option String) : Source where
  reads := reads.filter (!·.isEmpty)
  ne_nil := by simp
  failure := failure

def bytes (s : Source) : List UInt8 := s.reads.flatten

/-- Bytes to come, and one more for a failure to come. -/
def size (s : Source) : Nat := s.bytes.length + s.failure.elim 0 fun _ => 1

/-- One read of at most so many bytes. Where the bytes have ended, a read for no bytes fails as any
other one does. -/
def read (most : Nat) (s : Source) : Except String (List UInt8) × Source :=
  match h : s.reads with
  | [] => match s.failure with
    | some reason => (.error reason, { s with failure := none })
    | none => (.ok [], s)
  | bytes :: reads => match bytes.drop most with
    | [] =>
      (.ok bytes, { s with
        reads := reads
        ne_nil := fun b hb => s.ne_nil b (h ▸ List.mem_cons_of_mem _ hb) })
    | x :: rest =>
      (.ok (bytes.take most), { s with
        reads := (x :: rest) :: reads
        ne_nil := List.forall_mem_cons.2
          ⟨List.cons_ne_nil _ _, fun b hb => s.ne_nil b (h ▸ List.mem_cons_of_mem _ hb)⟩ })

/-- A read takes its bytes off the bytes to come. -/
theorem bytes_of_read {most : Nat} {s s' : Source} {bs : List UInt8}
    (h : s.read most = (.ok bs, s')) : s.bytes = bs ++ s'.bytes ∧ s'.failure = s.failure := by
  unfold read at h
  split at h
  · next hr =>
    split at h <;> cases h
    simp
  · next b reads hr =>
    split at h
    · cases h
      simp [bytes, hr]
    · next x rest hd =>
      cases h
      simp [bytes, hr, ← List.append_assoc, ← hd]

/-- A read that fails leaves the bytes to come and uses the failure up. -/
theorem bytes_of_read_error {most : Nat} {s s' : Source} {reason : String}
    (h : s.read most = (.error reason, s')) :
    s'.bytes = s.bytes ∧ s.failure = some reason ∧ s'.failure = none := by
  unfold read at h
  split at h
  · split at h
    · next hf =>
      cases h
      simp [bytes, hf]
    · cases h
  · split at h <;> cases h

end Source

/-- A source behind a buffer. -/
structure BufferedSource where
  capacity : Nat
  /-- Bytes read but not yet taken. -/
  held : List UInt8
  source : Source

namespace BufferedSource

def ofSource (capacity : Nat) (s : Source) : BufferedSource := ⟨capacity, [], s⟩

def bytes (b : BufferedSource) : List UInt8 := b.held ++ b.source.bytes

/-- Bytes not yet taken, and one more for a failure to come. -/
def size (b : BufferedSource) : Nat := b.held.length + b.source.size

/-- Reads into the buffer if nothing is held, and shows what is held; nothing held is the end. -/
def fill (b : BufferedSource) : Except String (List UInt8) × BufferedSource :=
  if b.held.isEmpty then
    match b.source.read b.capacity with
    | (.ok bs, s) => (.ok bs, { b with held := bs, source := s })
    | (.error reason, s) => (.error reason, { b with source := s })
  else (.ok b.held, b)

/-- Filling shows what is held and loses nothing. -/
theorem bytes_of_fill {b b' : BufferedSource} {bs : List UInt8} (h : b.fill = (.ok bs, b')) :
    b'.bytes = b.bytes ∧ b'.held = bs ∧ b'.size = b.size := by
  unfold fill at h
  split at h
  · next hb =>
    have hb : b.held = [] := by simpa using hb
    split at h
    · next bs' s' hr =>
      obtain ⟨h1, h2⟩ := Source.bytes_of_read hr
      cases h
      simp [bytes, size, Source.size, hb, h1, h2, Nat.add_assoc]
    · cases h
  · cases h
    simp

/-- A failed filling uses the failure up. -/
theorem size_of_fill_error {b b' : BufferedSource} {reason : String}
    (h : b.fill = (.error reason, b')) : b'.size < b.size := by
  unfold fill at h
  split at h
  · split at h
    · cases h
    · next hr =>
      obtain ⟨h1, h2, h3⟩ := Source.bytes_of_read_error hr
      cases h
      simp [size, Source.size, h1, h2, h3]
  · cases h

/-- Takes at most so many bytes. A request of at least the capacity goes past an empty buffer. -/
def read (most : Nat) (b : BufferedSource) : Except String (List UInt8) × BufferedSource :=
  if b.held.isEmpty && b.capacity ≤ most then
    let (r, s) := b.source.read most
    (r, { b with source := s })
  else match b.fill with
    | (.ok bs, b) => (.ok (bs.take most), { b with held := bs.drop most })
    | (.error reason, b) => (.error reason, b)

/-- Every read that takes something, or fails, leaves less to come. -/
theorem size_of_read {most : Nat} {b b' : BufferedSource} {r : Except String (List UInt8)}
    (h : b.read most = (r, b')) (hr : r ≠ .ok []) : b'.size < b.size := by
  unfold read at h
  split at h
  · next hb =>
    generalize hs : b.source.read most = p at h
    obtain ⟨r', s'⟩ := p
    cases h
    cases r with
    | ok bs =>
      obtain ⟨h1, h2⟩ := Source.bytes_of_read hs
      have : bs ≠ [] := fun e => hr (e ▸ rfl)
      have := List.length_pos_iff.2 this
      simp [size, Source.size, h1, h2]
      omega
    | error reason =>
      obtain ⟨h1, h2, h3⟩ := Source.bytes_of_read_error hs
      simp [size, Source.size, h1, h2, h3]
  · split at h
    · next bs b1 hf =>
      obtain ⟨-, h2, h3⟩ := bytes_of_fill hf
      cases h
      have : bs.take most ≠ [] := fun e => hr (by rw [e])
      have := List.length_pos_iff.2 this
      rw [← h3, size, size, h2]
      simp at this ⊢
      omega
    · next hf =>
      cases h
      exact size_of_fill_error hf

end BufferedSource
end ReplayLog
