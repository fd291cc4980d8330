import Mathlib.Data.List.TakeWhile
import ReplayLog.Source.Lines

/-! # The lines of bytes

The lines read from a buffered source depend only on the bytes that it will show and on the failure
behind them, not on the sizes of its reads: they are the pieces between line feeds. -/
namespace ReplayLog

namespace Source

theorem read_ok {most : Nat} {s s' : Source} {bs : List UInt8} (h : s.read most = (.ok bs, s')) :
    s.reads = [] ∧ s.failure = none ∧ bs = [] ∧ s' = s ∨
      s.reads ≠ [] ∧ (most = 0 → bs = [] ∧ s'.reads ≠ []) ∧ (most ≠ 0 → bs ≠ []) := by
  unfold read at h
  split at h
  · next hr =>
    split at h
    · cases h
    · next hf =>
      cases h
      exact .inl ⟨hr, hf, rfl, rfl⟩
  · next b reads hr =>
    have hb : b ≠ [] := s.ne_nil b (by simp [hr])
    right
    split at h
    · next hd =>
      cases h
      refine ⟨by simp [hr], fun h0 => ?_, fun _ => hb⟩
      subst h0
      exact absurd hd hb
    · cases h
      refine ⟨by simp [hr], fun h0 => ?_, fun h0 => ?_⟩
      · simp [h0]
      · simp [h0, hb]

theorem read_error {most : Nat} {s s' : Source} {reason : String}
    (h : s.read most = (.error reason, s')) : s.reads = [] ∧ s'.reads = [] := by
  unfold read at h
  split at h
  · next hr =>
    split at h <;> cases h
    exact ⟨hr, hr⟩
  · split at h <;> cases h

end Source

namespace BufferedSource

/-- The bytes that the buffer will show. Without capacity it shows only what it holds. -/
def shownBytes (b : BufferedSource) : List UInt8 :=
  b.held ++ if b.capacity = 0 then [] else b.source.bytes

/-- The failure that the buffer will show behind its bytes. Without capacity it never gets past the
bytes that the source still has. -/
def shownFailure (b : BufferedSource) : Option String :=
  if b.capacity = 0 ∧ b.source.reads ≠ [] then none else b.source.failure

/-- A buffer shows all of its source, unless it has no capacity and the source has bytes. -/
theorem shown_of_capacity {b : BufferedSource} (h : b.capacity = 0 → b.source.reads = []) :
    b.shownBytes = b.bytes ∧ b.shownFailure = b.source.failure := by
  by_cases hzero : b.capacity = 0
  · have hnil : b.source.bytes = [] := by rw [Source.bytes, h hzero, List.flatten_nil]
    rw [shownBytes, shownFailure, bytes, if_pos hzero, hnil, if_neg fun hne => hne.2 (h hzero)]
    exact ⟨rfl, rfl⟩
  · rw [shownBytes, shownFailure, bytes, if_neg hzero, if_neg fun hne => hzero hne.1]
    exact ⟨rfl, rfl⟩

theorem shown_ofReads {capacity : Nat} (h : capacity ≠ 0) (reads : List (List UInt8))
    (failure : Option String) :
    (ofSource capacity (.ofReads reads failure)).shownBytes = reads.flatten ∧
      (ofSource capacity (.ofReads reads failure)).shownFailure = failure := by
  obtain ⟨hbytes, hfailure⟩ :=
    shown_of_capacity (b := ofSource capacity (.ofReads reads failure)) fun hzero => absurd hzero h
  exact ⟨hbytes.trans List.flatten_filter_not_isEmpty, hfailure⟩

theorem shown_of_fill {b b' : BufferedSource} {bs : List UInt8} (h : b.fill = (.ok bs, b')) :
    b'.held = bs ∧ b'.capacity = b.capacity ∧ b'.shownBytes = b.shownBytes ∧
      b'.shownFailure = b.shownFailure ∧ (bs = [] → b.shownBytes = [] ∧ b.shownFailure = none) := by
  unfold fill at h
  split at h
  · next hb =>
    have hb : b.held = [] := by simpa using hb
    split at h
    · next bs' s' hr =>
      obtain ⟨hbytes, hfail⟩ := Source.bytes_of_read hr
      cases h
      rcases Source.read_ok hr with ⟨hnil, hnone, rfl, rfl⟩ | ⟨hne, hzero, hpos⟩
      · have hs : b.source.bytes = [] := by simp [Source.bytes, hnil]
        simp [shownBytes, shownFailure, hb, hs, hnone]
      · by_cases hc : b.capacity = 0
        · obtain ⟨rfl, hne'⟩ := hzero hc
          simp [shownBytes, shownFailure, hb, hc, hne, hne']
        · simp [shownBytes, shownFailure, hb, hc, hbytes, hfail, hpos hc]
    · cases h
  · next hb =>
    have hb : b.held ≠ [] := by simpa using hb
    cases h
    exact ⟨rfl, rfl, rfl, rfl, fun h => absurd h hb⟩

theorem shown_of_fill_error {b b' : BufferedSource} {reason : String}
    (h : b.fill = (.error reason, b')) :
    b.shownBytes = [] ∧ b.shownFailure = some reason ∧ b'.shownBytes = [] ∧
      b'.shownFailure = none := by
  unfold fill at h
  split at h
  · next hb =>
    have hb : b.held = [] := by simpa using hb
    split at h
    · cases h
    · next s' hr =>
      obtain ⟨-, hfail, hnone⟩ := Source.bytes_of_read_error hr
      obtain ⟨hnil, hnil'⟩ := Source.read_error hr
      cases h
      simp [shownBytes, shownFailure, Source.bytes, hb, hfail, hnone, hnil, hnil']
  · cases h

/-- One line taken off the bytes shown: up to the next line feed if there is one, else all bytes, or
the failure behind them. -/
def TakesLine (taken : List UInt8) (b : BufferedSource)
    (r : Except String (List UInt8) × BufferedSource) : Prop :=
  (∃ before rest, lineFeed ∉ before ∧ b.shownBytes = before ++ lineFeed :: rest ∧
    r.1 = .ok (taken.reverse ++ before ++ [lineFeed]) ∧ r.2.shownBytes = rest ∧
    r.2.shownFailure = b.shownFailure) ∨
  (lineFeed ∉ b.shownBytes ∧
    r.1 = (match b.shownFailure with
      | none => .ok (taken.reverse ++ b.shownBytes)
      | some reason => .error reason) ∧
    r.2.shownBytes = [] ∧ r.2.shownFailure = none)

/-- What is taken of a line and what is shown next may both be counted as shown. -/
theorem TakesLine.unread {taken bs : List UInt8} {b b' : BufferedSource}
    {r : Except String (List UInt8) × BufferedSource} (h : TakesLine (bs.reverse ++ taken) b' r)
    (hfree : lineFeed ∉ bs) (hshown : b.shownBytes = bs ++ b'.shownBytes)
    (hfailure : b'.shownFailure = b.shownFailure) : TakesLine taken b r := by
  rw [TakesLine, hfailure] at h
  rcases h with ⟨before, rest, hfree', hb', hr, hrest⟩ | ⟨hfree', hr, hrest⟩
  · left
    refine ⟨bs ++ before, rest, ?_, ?_, ?_, hrest⟩
    · rw [List.mem_append, not_or]
      exact ⟨hfree, hfree'⟩
    · rw [hshown, hb', List.append_assoc]
    · rw [hr]
      simp
  · right
    refine ⟨?_, ?_, hrest⟩
    · rw [hshown, List.mem_append, not_or]
      exact ⟨hfree, hfree'⟩
    · rw [hr, hshown]
      cases b.shownFailure <;> simp

theorem takesLine_readLineFrom (taken : List UInt8) (b : BufferedSource) :
    TakesLine taken b (b.readLineFrom taken) := by
  fun_induction readLineFrom taken b with
  | case1 taken b reason b' hf =>
    obtain ⟨hbytes, hfail, hbytes', hfail'⟩ := shown_of_fill_error hf
    right
    simp [hbytes, hfail, hbytes', hfail']
  | case2 taken b b' hf =>
    obtain ⟨-, -, hbytes', hfail', hend⟩ := shown_of_fill hf
    obtain ⟨hbytes, hfail⟩ := hend rfl
    right
    simp [hbytes', hfail', hbytes, hfail]
  | case3 taken b x bs b' hf before hd ih =>
    obtain ⟨hheld, hcap, hbytes', hfail', -⟩ := shown_of_fill hf
    have hbefore : before = x :: bs := by
      rw [← List.takeWhile_append_dropWhile (l := x :: bs) (p := (· != lineFeed)), hd,
        List.append_nil]
    have hfree : lineFeed ∉ x :: bs := by
      intro hm
      simpa using List.dropWhile_eq_nil_iff.1 hd lineFeed hm
    have hshown : b.shownBytes = (x :: bs) ++ { b' with held := [] }.shownBytes := by
      rw [← hbytes']
      simp [shownBytes, hheld]
    rw [hbefore] at ih ⊢
    exact ih.unread hfree hshown hfail'
  | case4 taken b x bs b' hf before y rest hd =>
    obtain ⟨hheld, hcap, hbytes', hfail', -⟩ := shown_of_fill hf
    have hsplit : x :: bs = before ++ y :: rest := by
      rw [← hd]
      exact (List.takeWhile_append_dropWhile).symm
    have hy : y = lineFeed := by
      have := List.head?_dropWhile_not (· != lineFeed) (x :: bs)
      rw [hd] at this
      simpa using this
    subst hy
    left
    refine ⟨before, rest ++ if b'.capacity = 0 then [] else b'.source.bytes, ?_, ?_, rfl, rfl, ?_⟩
    · intro hm
      simpa using List.mem_takeWhile_imp hm
    · rw [← hbytes', shownBytes, hheld, hsplit]
      simp
    · rw [← hfail']
      rfl

theorem takesLine_of_readLine {b b' : BufferedSource} {r : Except String (List UInt8)}
    (h : b.readLine = (r, b')) : TakesLine [] b (r, b') := by
  rw [readLine] at h
  exact h ▸ takesLine_readLineFrom [] b

theorem shown_of_readLine_error {b b' : BufferedSource} {reason : String}
    (h : b.readLine = (.error reason, b')) :
    lineFeed ∉ b.shownBytes ∧ b.shownFailure = some reason ∧ b'.shownBytes = [] ∧
      b'.shownFailure = none := by
  rcases takesLine_of_readLine h with ⟨_, _, _, _, hr, _⟩ | ⟨hfree, hr, hbytes, hfailure⟩
  · cases hr
  · refine ⟨hfree, ?_, hbytes, hfailure⟩
    cases hs : b.shownFailure with
    | none => simp [hs] at hr
    | some reason' =>
      rw [hs] at hr
      cases hr
      rfl

theorem shown_of_readLine_nil {b b' : BufferedSource} (h : b.readLine = (.ok [], b')) :
    b.shownBytes = [] ∧ b.shownFailure = none := by
  rcases takesLine_of_readLine h with ⟨_, _, _, _, hr, _⟩ | ⟨-, hr, -⟩
  · simp at hr
  · cases hs : b.shownFailure with
    | none =>
      rw [hs] at hr
      exact ⟨(Except.ok.inj hr).symm, rfl⟩
    | some reason => simp [hs] at hr

theorem shown_of_readLine {b b' : BufferedSource} {line : List UInt8}
    (h : b.readLine = (.ok line, b')) :
    (∃ before, lineFeed ∉ before ∧ line = before ++ [lineFeed] ∧
      b.shownBytes = before ++ lineFeed :: b'.shownBytes ∧ b'.shownFailure = b.shownFailure) ∨
    (lineFeed ∉ b.shownBytes ∧ line = b.shownBytes ∧ b.shownFailure = none ∧
      b'.shownBytes = [] ∧ b'.shownFailure = none) := by
  rcases takesLine_of_readLine h with
    ⟨before, rest, hfree, hbytes, hr, rfl, hfailure⟩ | ⟨hfree, hr, hbytes, hfailure⟩
  · exact .inl ⟨before, hfree, Except.ok.inj hr, hbytes, hfailure⟩
  · right
    cases hs : b.shownFailure with
    | none =>
      rw [hs] at hr
      exact ⟨hfree, Except.ok.inj hr, rfl, hbytes, hfailure⟩
    | some reason => simp [hs] at hr

end BufferedSource

def withoutReturn (piece : List UInt8) : List UInt8 :=
  if piece.getLast? = some carriageReturn then piece.dropLast else piece

theorem withoutEnd_append_lineFeed (piece : List UInt8) :
    BufferedSource.withoutEnd (piece ++ [lineFeed]) = withoutReturn piece := by
  unfold BufferedSource.withoutEnd withoutReturn
  rw [List.reverse_append]
  rcases List.eq_nil_or_concat piece with rfl | ⟨front, last, rfl⟩
  · rfl
  · simp

theorem withoutEnd_of_not_mem {piece : List UInt8} (h : lineFeed ∉ piece) :
    BufferedSource.withoutEnd piece = piece := by
  unfold BufferedSource.withoutEnd
  rcases List.eq_nil_or_concat piece with rfl | ⟨front, last, rfl⟩
  · rfl
  · have hlast : last ≠ lineFeed := by
      intro he
      exact h (by simp [he])
    simp [hlast]

/-- The texts of the pieces between line feeds. What is behind the last line feed is a line if it is
not empty, unless a failure takes its place. -/
def physicalLines (e : Encoding) (bs : List UInt8) (failure : Option String) :
    List (Except ReadFault Text) :=
  let text (piece : List UInt8) := (e.decode piece).mapError ReadFault.notUtf8
  let pieces := bs.splitOn lineFeed
  pieces.dropLast.map (fun piece => text (withoutReturn piece)) ++
    match failure with
    | some reason => [.error (.refused reason)]
    | none => if pieces.getLastD [] = [] then [] else [text (pieces.getLastD [])]

theorem physicalLines_append_lineFeed (e : Encoding) {piece : List UInt8} (h : lineFeed ∉ piece)
    (bs : List UInt8) (failure : Option String) :
    physicalLines e (piece ++ lineFeed :: bs) failure =
      (e.decode (withoutReturn piece)).mapError .notUtf8 :: physicalLines e bs failure := by
  have hne : bs.splitOn lineFeed ≠ [] := List.splitOn_ne_nil _ _
  have hlast : (piece :: bs.splitOn lineFeed).getLastD [] = (bs.splitOn lineFeed).getLastD [] := by
    obtain ⟨first, others, he⟩ := List.exists_cons_of_ne_nil hne
    rw [he]
    rfl
  simp only [physicalLines, List.splitOn_append_cons_self_of_not_mem h, hlast,
    List.dropLast_cons_of_ne_nil hne, List.map_cons, List.cons_append]

theorem physicalLines_of_not_mem (e : Encoding) {bs : List UInt8} (h : lineFeed ∉ bs)
    (failure : Option String) :
    physicalLines e bs failure = match failure with
      | some reason => [.error (.refused reason)]
      | none => if bs = [] then [] else [(e.decode bs).mapError .notUtf8] := by
  simp [physicalLines, List.splitOn_eq_singleton h]

theorem linesFrom_eq (e : Encoding) (seen : List (Except ReadFault Text)) (b : BufferedSource) :
    b.linesFrom e seen = seen.reverse ++ physicalLines e b.shownBytes b.shownFailure := by
  fun_induction BufferedSource.linesFrom e seen b with
  | case1 seen b reason b' hr ih =>
    obtain ⟨hfree, hfailure, hbytes', hfailure'⟩ := BufferedSource.shown_of_readLine_error hr
    rw [ih, hbytes', hfailure', hfailure, physicalLines_of_not_mem e hfree]
    simp [physicalLines]
  | case2 seen b b' hr =>
    obtain ⟨hbytes, hfailure⟩ := BufferedSource.shown_of_readLine_nil hr
    rw [hbytes, hfailure]
    simp [physicalLines]
  | case3 seen b x bs b' hr ih =>
    rw [ih, BufferedSource.decodeLine, List.reverse_cons, List.append_assoc]
    rcases BufferedSource.shown_of_readLine hr with
      ⟨before, hfree, hline, hbytes, hfailure⟩ | ⟨hfree, hline, hfailure, hbytes', hfailure'⟩
    · rw [hline, withoutEnd_append_lineFeed, hbytes, hfailure,
        physicalLines_append_lineFeed e hfree]
      rfl
    · rw [hbytes', hfailure', hfailure, physicalLines_of_not_mem e hfree, ← hline,
        withoutEnd_of_not_mem (hline ▸ hfree)]
      simp [physicalLines]

/-- Reading lines is cutting the bytes at their line feeds, whatever the reads. -/
theorem lines_eq_physicalLines (e : Encoding) (b : BufferedSource) :
    b.lines e = physicalLines e b.shownBytes b.shownFailure :=
  linesFrom_eq e [] b

end ReplayLog
