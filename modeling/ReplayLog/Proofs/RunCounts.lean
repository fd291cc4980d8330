import ReplayLog.Proofs.RecordLines

/-! # What a run counts

The run, its writer and the sink each count for themselves. Their counts differ by one at most, and
only where the sink has refused a record or the flush behind it; a flush that is refused at the end
comes too late to make a difference. -/
namespace ReplayLog

theorem Writer.Grown.count_lineFeed {l : Layout} {records : List Record} {w w' : Writer}
    (h : w.Grown l records w') :
    w'.sink.text.count '\n' = w.sink.text.count '\n' + records.length := by
  rw [h.text, List.count_append, List.count_flatMap]
  congr 1
  have hone : ∀ r ∈ records, (List.count '\n' ∘ fun r => l.line r ++ ['\n']) r = 1 := by
    intro r _
    rw [Function.comp_apply, List.count_append, List.count_eq_zero.2 (l.lineFeed_not_mem_line r)]
    rfl
  rw [List.map_congr_left hone, List.map_const', List.sum_replicate_nat, Nat.mul_one]

namespace Settings

open Progress Writer

/-- Every entry seen is written or ignored, unless its record or the flush behind it was refused. The
writer counts what the run counts, and a record whose flush was refused. The sink has grown by a line
for each record that the writer counts, and it has seen one flush for each multiple of the interval
reached and one at the end. -/
theorem run_counts (s : Settings) (b : BufferedSource) (w : Writer) :
    let stopped := (s.takeSource b ⟨{}, w, #[]⟩).1
    let tally := (s.run b w).2.tally
    let w' := (s.run b w).2.writer
    tally.seen = tally.written + tally.ignored +
      (if stopped = refusedBy .full ∨ stopped = refusedBy .flushRefused then 1 else 0) ∧
    w'.written = w.written + tally.written + (if stopped = refusedBy .flushRefused then 1 else 0) ∧
    w'.sink.lines.size + w.written = w.sink.lines.size + w'.written ∧
    w'.sink.text.count '\n' + w.written = w.sink.text.count '\n' + w'.written ∧
    w'.sink.flushes = w.sink.flushes + dueFlushes w.interval w.written w'.written +
      match (s.run b w).1 with
      | .error (.overflow _) => 0
      | _ => 1 := by
  obtain ⟨records, -, hcounted⟩ := s.takeSource_counted b w
  rw [run]
  generalize s.takeSource b ⟨{}, w, #[]⟩ = taken at hcounted
  obtain ⟨r, p⟩ := taken
  obtain ⟨htally, hwritten, hlines, hflushes⟩ := close_counts r p
  have htext : (close (r, p)).2.writer.sink.text = p.writer.sink.text := by
    rw [Sink.text, hlines, Sink.text]
  have hsize := congrArg List.length hcounted.grown.lines
  rw [Array.length_toList, List.length_append, List.length_map, Array.length_toList] at hsize
  have hcount := hcounted.grown.count_lineFeed
  have hgrowth := hcounted.grown.written
  have hrun := hcounted.written
  have hseen := hcounted.seen
  dsimp only at hsize hcount hgrowth hrun hseen ⊢
  rw [htally, hwritten, hlines, htext, hflushes, hcounted.grown.flushes]
  refine ⟨?_, ?_, ?_, ?_, rfl⟩ <;> omega

/-- The record whose flush is refused is in the sink and counted by the writer only. -/
example :
    let s : Settings := { dialect := .serviceAudit, zone := .fixed 0 }
    let b : BufferedSource := .ofSource 64 (.ofReads [Text.toUtf8 ("\x7b\"sql\":\"a\"," ++
      "\"origin_time\":\"1\",\"thread_id\":\"7\",\"latency\":\"3\",\"db\":\"d\"," ++
      "\"user\":\"u\"\x7d").toList] none)
    let p := (s.run b ⟨.refusing 1, 1, 0⟩).2
    p.tally = ⟨1, 0, 1, 0, 0⟩ ∧ p.writer.written = 1 ∧ p.writer.sink.lines.size = 1 ∧
      p.writer.sink.flushes = 2 := by
  decide +kernel

end Settings
end ReplayLog
