import ReplayLog.Proofs.StoredRecords

/-! # Calls of a writer

A writer may be given records and flushes in any order, and it goes on after a refusal. At every
point its sink holds the lines of the records whose lines the sink took, in the order of the calls,
and the writer counts just these. A record is at fault if its line is refused, and then nothing has
changed, or if the flush that it makes due is refused, and then its line is stored and counted. -/
namespace ReplayLog

namespace Sink

def Takes (s : Sink) (line : Text) : Prop := (s.store line).1 = .ok ()

def RefusesFlush (s : Sink) : Prop := s.refusedFlush.any (· (s.flushes + 1)) = true

instance (s : Sink) (line : Text) : Decidable (s.Takes line) := inferInstanceAs (Decidable (_ = _))

instance (s : Sink) : Decidable s.RefusesFlush := inferInstanceAs (Decidable (_ = _))

/-- Those of the lines that still have room. -/
def fitting (s : Sink) (lines : List Text) : List Text :=
  match s.capacity with
  | some most => lines.take (most - s.lines.size)
  | none => lines

variable {s : Sink} {line : Text}

theorem takes_iff : s.Takes line ↔ ∀ most, s.capacity = some most → s.lines.size < most := by
  obtain ⟨lines, flushes, capacity, refusedFlush⟩ := s
  cases capacity with
  | none => simp [Takes, store]
  | some most =>
    by_cases h : most ≤ lines.size
    · simp [Takes, store, h]
    · simp [Takes, store, h, Nat.lt_of_not_le h]

theorem fitting_nil (s : Sink) : s.fitting [] = [] := by
  rw [fitting]
  split
  · exact List.take_nil
  · rfl

/-- Once a line is taken there is room for one line less. -/
theorem fitting_cons_of_takes (h : s.Takes line) {s' : Sink} (hcapacity : s'.capacity = s.capacity)
    (hsize : s'.lines.size = s.lines.size + 1) (lines : List Text) :
    s.fitting (line :: lines) = line :: s'.fitting lines := by
  rw [takes_iff] at h
  rw [fitting, fitting, hcapacity, hsize]
  cases hmost : s.capacity with
  | none => rfl
  | some most =>
    have hroom : most - s.lines.size = most - (s.lines.size + 1) + 1 := by
      have := h most hmost
      omega
    dsimp only
    rw [hroom, List.take_succ_cons]

/-- A sink that refuses a line has no room for any line. -/
theorem fitting_of_not_takes (h : ¬s.Takes line) (lines : List Text) : s.fitting lines = [] := by
  simp only [takes_iff, not_forall] at h
  obtain ⟨most, hmost, hfull⟩ := h
  rw [fitting, hmost]
  dsimp only
  rw [Nat.sub_eq_zero_of_le (Nat.le_of_not_lt hfull), List.take_zero]

end Sink

namespace Writer

inductive Call
  | write (l : Layout) (r : Record)
  | flush

namespace Call

def line? : Call → Option Text
  | write l r => some (l.line r)
  | flush => none

def isFlush : Call → Bool
  | write _ _ => false
  | flush => true

end Call

def serve (w : Writer) : Call → Except SinkFault Unit × Writer
  | .write l r => w.write l r
  | .flush => w.flush

/-- The writer behind the calls, whatever they were answered. -/
def serveAll (w : Writer) (calls : List Call) : Writer := calls.foldl (fun w c => (w.serve c).2) w

def taken (w : Writer) : List Call → List Text
  | [] => []
  | c :: calls => (c.line?.filter fun line => w.sink.Takes line).toList ++ (w.serve c).2.taken calls

def FlushesNext (w : Writer) : Prop := 0 < w.interval ∧ w.interval ∣ w.written + 1

instance (w : Writer) : Decidable w.FlushesNext := inferInstanceAs (Decidable (_ ∧ _))

variable {w w' w'' : Writer} {l : Layout} {r : Record}

/-- A record whose line is refused leaves no trace. -/
theorem write_of_not_takes (h : ¬w.sink.Takes (l.line r)) : w.write l r = (.error .full, w) := by
  obtain ⟨⟨lines, flushes, capacity, refusedFlush⟩, interval, written⟩ := w
  by_cases hfull : capacity.any (· ≤ lines.size) = true
  · simp only [write, Sink.store, hfull, if_true]
  · exact absurd (by simp [Sink.Takes, Sink.store, hfull]) h

theorem flushesNext_iff : w.FlushesNext ↔ w.interval ∣ w.written + 1 :=
  and_iff_right_of_imp fun h => Nat.pos_of_dvd_of_pos h (Nat.succ_pos _)

/-- A record whose line is taken is counted, and then the flush is made that it makes due. -/
theorem write_of_takes (h : w.sink.Takes (l.line r)) :
    w.write l r =
      (if w.FlushesNext ∧ w.sink.RefusesFlush then .error .flushRefused else .ok (),
        { w with
          sink := { w.sink with
            lines := w.sink.lines.push (l.line r)
            flushes := w.sink.flushes + if w.FlushesNext then 1 else 0 }
          written := w.written + 1 }) := by
  obtain ⟨⟨lines, flushes, capacity, refusedFlush⟩, interval, written⟩ := w
  have hroom : ¬capacity.any (· ≤ lines.size) = true := by
    intro hfull
    simp [Sink.Takes, Sink.store, hfull] at h
  have hdue := isDue_iff (w := ⟨⟨lines.push (l.line r), flushes, capacity, refusedFlush⟩, interval,
    written + 1⟩) (Nat.succ_ne_zero written)
  simp only [write, Sink.store, hroom, Bool.false_eq_true, if_false, hdue, flushesNext_iff]
  by_cases hnext : interval ∣ written + 1
  · simp only [hnext, if_true, true_and]
    rfl
  · simp only [hnext, if_false, false_and, Nat.add_zero]

/-- What the calls have done to the sink and the counts of a writer: the sink took these lines, and
so many of its flushes were asked for by calls. -/
structure Served (stored : List Text) (asked : Nat) (w w' : Writer) : Prop where
  interval : w'.interval = w.interval
  lines : w'.sink.lines.toList = w.sink.lines.toList ++ stored
  written : w'.written = w.written + stored.length
  flushes : w'.sink.flushes = w.sink.flushes + asked + dueFlushes w.interval w.written w'.written

namespace Served

theorem refl (w : Writer) : Served [] 0 w w :=
  ⟨rfl, (List.append_nil _).symm, rfl, by simp⟩

theorem trans {stored more : List Text} {asked asked' : Nat} (h : Served stored asked w w')
    (h' : Served more asked' w' w'') : Served (stored ++ more) (asked + asked') w w'' := by
  have hle : w.written ≤ w'.written := h.written ▸ Nat.le_add_right _ _
  have hle' : w'.written ≤ w''.written := h'.written ▸ Nat.le_add_right _ _
  refine ⟨h'.interval.trans h.interval, ?_, ?_, ?_⟩
  · rw [h'.lines, h.lines, List.append_assoc]
  · rw [h'.written, h.written, List.length_append, Nat.add_assoc]
  · rw [h'.flushes, h.flushes, h.interval, ← dueFlushes_add hle hle']
    omega

end Served

/-- One call: a record may be stored, and only a record that is stored can make a flush due. -/
theorem serve_served (w : Writer) (c : Call) :
    Served (c.line?.filter fun line => w.sink.Takes line).toList (if c.isFlush then 1 else 0) w
      (w.serve c).2 := by
  cases c with
  | flush => exact ⟨rfl, (List.append_nil _).symm, rfl, by rw [serve, flush, dueFlushes_self]; rfl⟩
  | write l r =>
    rw [serve, Call.line?]
    by_cases htakes : w.sink.Takes (l.line r)
    · rw [write_of_takes htakes, Option.filter_some, if_pos (by simpa using htakes)]
      refine ⟨rfl, Array.toList_push, rfl, ?_⟩
      rw [dueFlushes_succ]
      simp only [flushesNext_iff]
      rfl
    · rw [write_of_not_takes htakes, Option.filter_some, if_neg (by simpa using htakes)]
      exact .refl w

/-- In the course of all calls, what the sink takes and what is counted stay in step. -/
theorem serveAll_served (w : Writer) (calls : List Call) :
    Served (w.taken calls) (calls.countP Call.isFlush) w (w.serveAll calls) := by
  induction calls generalizing w with
  | nil => exact .refl w
  | cons c calls ih =>
    have hcalls := (w.serve_served c).trans (ih (w.serve c).2)
    rw [List.countP_cons, Nat.add_comm]
    exact hcalls

theorem capacity_serve (w : Writer) (c : Call) :
    (w.serve c).2.sink.capacity = w.sink.capacity := by
  cases c with
  | flush => rfl
  | write l r =>
    rw [serve]
    by_cases htakes : w.sink.Takes (l.line r)
    · rw [write_of_takes htakes]
    · rw [write_of_not_takes htakes]

/-- The sink takes the lines that it has room for, and none behind the first refused one. -/
theorem taken_eq_fitting (w : Writer) (calls : List Call) :
    w.taken calls = w.sink.fitting (calls.filterMap Call.line?) := by
  induction calls generalizing w with
  | nil => exact (Sink.fitting_nil _).symm
  | cons c calls ih =>
    rw [taken, ih]
    cases c with
    | flush => rfl
    | write l r =>
      have hline : (Call.write l r).line? = some (l.line r) := rfl
      rw [List.filterMap_cons_some hline, hline, serve, Option.filter_some]
      by_cases htakes : w.sink.Takes (l.line r)
      · have hsize : (w.write l r).2.sink.lines.size = w.sink.lines.size + 1 := by
          rw [write_of_takes htakes, Array.size_push]
        rw [Sink.fitting_cons_of_takes htakes (w.capacity_serve (.write l r)) hsize,
          if_pos (by simpa using htakes)]
        rfl
      · rw [write_of_not_takes htakes, if_neg (by simpa using htakes),
          Sink.fitting_of_not_takes htakes, Sink.fitting_of_not_takes htakes]
        rfl

/-- A record is refused with its line, and then all is as before, or with the flush that its line
has made due, and then the line is stored and counted. -/
theorem write_answers (w : Writer) (l : Layout) (r : Record) :
    let answered := w.write l r
    let stored := w.sink.Takes (l.line r)
    let flushed := stored ∧ 0 < w.interval ∧ w.interval ∣ answered.2.written
    ((∃ fault, answered.1 = .error fault) ↔ ¬stored ∨ flushed ∧ w.sink.RefusesFlush) ∧
    (stored ↔ answered.2.sink.text = w.sink.text ++ (l.line r ++ ['\n']) ∧
      answered.2.written = w.written + 1) ∧
    (¬stored ↔ answered.2 = w) ∧
    answered.2.sink.flushes = w.sink.flushes + if flushed then 1 else 0 := by
  intro answered stored flushed
  by_cases htakes : w.sink.Takes (l.line r)
  · have hanswered : answered = _ := write_of_takes htakes
    have hstored : stored ↔ True := iff_true_intro htakes
    have hcounted : answered.2.written = w.written + 1 := congrArg (·.2.written) hanswered
    have hflushed : flushed ↔ w.FlushesNext := by
      change stored ∧ 0 < w.interval ∧ w.interval ∣ answered.2.written ↔ _
      rw [hcounted]
      exact and_iff_right htakes
    have htext : answered.2.sink.text = w.sink.text ++ (l.line r ++ ['\n']) := by
      rw [hanswered]
      simp [Sink.text]
    have hne : answered.2 ≠ w := by
      intro hsame
      rw [hsame] at hcounted
      exact Nat.succ_ne_self _ hcounted.symm
    refine ⟨?_, iff_of_true htakes ⟨htext, hcounted⟩, iff_of_false (not_not_intro htakes) hne, ?_⟩
    · rw [hstored, hflushed, not_true_eq_false, false_or, hanswered]
      by_cases hrefused : w.FlushesNext ∧ w.sink.RefusesFlush
      · exact iff_of_true ⟨_, if_pos hrefused⟩ hrefused
      · exact iff_of_false (by simp [hrefused]) hrefused
    · simp only [hflushed]
      rw [hanswered]
  · have hanswered : answered = _ := write_of_not_takes htakes
    have hcounted : answered.2.written ≠ w.written + 1 := by
      rw [hanswered]
      exact (Nat.succ_ne_self _).symm
    refine ⟨iff_of_true ⟨.full, congrArg Prod.fst hanswered⟩ (.inl htakes),
      iff_of_false htakes fun h => hcounted h.2,
      iff_of_true htakes (congrArg Prod.snd hanswered), ?_⟩
    rw [if_neg fun h => htakes h.1, hanswered, Nat.add_zero]

/-- Whatever is called and refused, the sink holds the lines that it took, as many as it has room
for, and the writer counts them; the flushes are those asked for and those that fell due. At every
such point a record is refused with its line, which changes nothing, or with the flush that its line
has made due, and then the line is stored and counted. -/
theorem serveAll_appends (w : Writer) (calls : List Call) :
    let w' := w.serveAll calls
    w'.sink.text = w.sink.text ++ (w.taken calls).flatMap (· ++ ['\n']) ∧
    w'.written = w.written + (w.taken calls).length ∧
    w.taken calls = w.sink.fitting (calls.filterMap Call.line?) ∧
    w'.sink.flushes = w.sink.flushes + calls.countP Call.isFlush +
      dueFlushes w.interval w.written w'.written ∧
    ∀ (l : Layout) (r : Record),
      let answered := w'.write l r
      let stored := w'.sink.Takes (l.line r)
      let flushed := stored ∧ 0 < w.interval ∧ w.interval ∣ answered.2.written
      ((∃ fault, answered.1 = .error fault) ↔ ¬stored ∨ flushed ∧ w'.sink.RefusesFlush) ∧
      (stored ↔ answered.2.sink.text = w'.sink.text ++ (l.line r ++ ['\n']) ∧
        answered.2.written = w'.written + 1) ∧
      (¬stored ↔ answered.2 = w') ∧
      answered.2.sink.flushes = w'.sink.flushes + if flushed then 1 else 0 := by
  intro w'
  have hserved := w.serveAll_served calls
  refine ⟨?_, hserved.written, w.taken_eq_fitting calls, hserved.flushes, ?_⟩
  · rw [Sink.text, hserved.lines, List.flatMap_append]
    rfl
  · intro l r
    rw [← hserved.interval]
    exact w'.write_answers l r

end Writer
end ReplayLog
