import ReplayLog.Proofs.EntryParts
import ReplayLog.Proofs.FirstMatch
import ReplayLog.Proofs.Trimming

/-! # Parameters in logs of compute nodes

The parameters of a statement stand between its second length mark and the metrics mark. What stands
behind the length mark is trimmed before the metrics mark is looked for. Parameters that reach up to
the mark are read whole; blanks before the mark stay with the parameters, and of a mark with nothing
but blanks before it the trimming takes the space that it begins with. -/
namespace ReplayLog.NodeLog

open Extract Pattern

variable {t before entry behind statement tail block parameters rest metrics : Text}

section Mark

theorem firstMatch_metricsMark_iff :
    FirstMatch [metricsMark] t before rest ↔
      t = before ++ ' ' :: ("# [rt=".toList ++ rest) ∧ Free [metricsMark] before :=
  firstMatch_literal_iff (by decide)

/-- The trimming does not reach past the equals sign of the mark. -/
theorem trimEnd_mark (before rest : Text) :
    Text.trimEnd (before ++ ("# [rt=".toList ++ rest)) =
      before ++ ("# [rt=".toList ++ rest.trimEnd) := by
  have hmark (t : Text) : before ++ ("# [rt=".toList ++ t) = before ++ "# [rt".toList ++ '=' :: t := by
    rw [List.append_assoc]
    rfl
  rw [hmark, Text.trimEnd_append_cons (by decide), hmark]

theorem trim_of_not_blank_before (h : parameters.isBlankText = false) (rest : Text) :
    Text.trim (parameters ++ ' ' :: ("# [rt=".toList ++ rest)) =
      parameters.trimStart ++ ' ' :: ("# [rt=".toList ++ rest.trimEnd) := by
  rw [Text.trim, Text.trimStart_append_of_not_blank h, List.append_cons, trimEnd_mark,
    ← List.append_cons]

/-- The mark loses the space that it begins with. -/
theorem trim_of_blank_before (h : parameters.isBlankText = true) (rest : Text) :
    Text.trim (parameters ++ ' ' :: ("# [rt=".toList ++ rest)) =
      "# [rt=".toList ++ rest.trimEnd := by
  have hstart : Text.trimStart (parameters ++ ' ' :: ("# [rt=".toList ++ rest)) =
      "# [rt=".toList ++ rest := by
    rw [Text.trimStart, List.dropWhile_append_of_pos (List.all_eq_true.1 h)]
    rfl
  rw [Text.trim, hstart]
  exact trimEnd_mark [] rest

/-- A mark without its space is not a mark. -/
theorem free_of_mark (h : Free [metricsMark] t) : Free [metricsMark] ("# [rt=".toList ++ t) := by
  have hfirst : ∀ c ∈ "[rt=".toList, ∀ p ∈ [metricsMark], p.first c = false := by
    intro c hc p hp
    rw [List.mem_singleton.1 hp]
    refine beq_false_of_ne ?_
    rintro rfl
    exact absurd hc (by decide)
  have hspace : Free [metricsMark] (' ' :: ("[rt=".toList ++ t)) :=
    free_cons.2 ⟨rfl, h.append_of_not_first hfirst⟩
  exact free_cons.2 ⟨rfl, hspace⟩

end Mark

section Parameters

theorem parametersAndMetrics_of_firstMatch (h : FirstMatch [metricsMark] t before rest)
    (hmetrics : UpTo [metricsMark] rest metrics) :
    parametersAndMetrics t = .ok (before, metrics) := by
  obtain ⟨pieces, hcut⟩ := hmetrics.exists_cut_eq
  rw [parametersAndMetrics, h.cut_eq, hcut]

theorem parametersAndMetrics_of_free (h : Free [metricsMark] t) :
    parametersAndMetrics t = .error (.fault (.missingPiece metricsRule 1)) := by
  rw [parametersAndMetrics, cut_eq_of_free h]
  rfl

theorem parametersAndMetrics_of_not_blank (h : FirstMatch [metricsMark] block parameters rest)
    (hblank : parameters.isBlankText = false) (hmetrics : UpTo [metricsMark] rest.trimEnd metrics) :
    parametersAndMetrics block.trim = .ok (parameters.trimStart, metrics) := by
  obtain ⟨rfl, hfree⟩ := firstMatch_metricsMark_iff.1 h
  have hstart : Free [metricsMark] parameters.trimStart := by
    rw [← List.takeWhile_append_dropWhile (p := isBlank) (l := parameters)] at hfree
    exact hfree.of_append_right
  refine parametersAndMetrics_of_firstMatch ?_ hmetrics
  exact firstMatch_metricsMark_iff.2 ⟨trim_of_not_blank_before hblank rest, hstart⟩

/-- A mark behind nothing but blanks is not found. -/
theorem parametersAndMetrics_of_blank (h : FirstMatch [metricsMark] block parameters rest)
    (hblank : parameters.isBlankText = true) :
    (Free [metricsMark] rest.trimEnd →
      parametersAndMetrics block.trim = .error (.fault (.missingPiece metricsRule 1))) ∧
    ∀ inner more metrics, FirstMatch [metricsMark] rest.trimEnd inner more →
      UpTo [metricsMark] more metrics →
      parametersAndMetrics block.trim = .ok ("# [rt=".toList ++ inner, metrics) := by
  obtain ⟨rfl, -⟩ := firstMatch_metricsMark_iff.1 h
  rw [trim_of_blank_before hblank]
  refine ⟨fun hfree => parametersAndMetrics_of_free (free_of_mark hfree), ?_⟩
  intro inner more metrics hnext hmetrics
  obtain ⟨hrest, hfree⟩ := firstMatch_metricsMark_iff.1 hnext
  refine parametersAndMetrics_of_firstMatch (firstMatch_metricsMark_iff.2 ⟨?_, ?_⟩) hmetrics
  · rw [hrest, List.append_assoc]
  · exact free_of_mark hfree

end Parameters

section Conversion

theorem statementAndTail_of_firstMatch (hfirst : FirstMatch [lengthMark] entry before behind)
    (hsecond : FirstMatch [lengthMark] behind statement tail)
    (hblock : UpTo [lengthMark] tail block) :
    statementAndTail entry = .ok (statement.trim, block.trim) := by
  obtain ⟨pieces, hcut⟩ := hblock.exists_cut_eq
  rw [statementAndTail, hfirst.cut_eq, hsecond.cut_eq, hcut]

variable {zone : Zone} {parts read : Text × Text}

theorem parameter_of_emit {r : Record} (h : convert zone entry = .ok (.emit r))
    (hparts : statementAndTail entry = .ok parts)
    (hread : parametersAndMetrics parts.2 = .ok read) : r.parameter = parameter? read.1 := by
  obtain ⟨header, -, h⟩ := bind_eq_ok_iff.1 h
  obtain ⟨startTime, -, h⟩ := bind_eq_ok_iff.1 h
  obtain ⟨client, -, h⟩ := bind_eq_ok_iff.1 h
  obtain ⟨parts', hparts', h⟩ := bind_eq_ok_iff.1 h
  cases hparts.symm.trans hparts'
  obtain ⟨read', hread', h⟩ := bind_eq_ok_iff.1 h
  cases hread.symm.trans hread'
  obtain ⟨time, -, h⟩ := bind_eq_ok_iff.1 h
  dsimp only at h
  split at h <;> cases h
  rfl

/-- Without its metrics, an entry is faulty. -/
theorem exists_fault_of_metrics {fault : EntryFault} (hparts : statementAndTail entry = .ok parts)
    (hread : parametersAndMetrics parts.2 = .error (.fault fault)) :
    ∃ fault, convert zone entry = .error (.fault fault) := by
  refine GoesOn.exists_fault (fun o ho => ?_) fun outcome hok => ?_
  · obtain ⟨header, -, startTime, -, client, -, parts', hparts', read, hread', -⟩ :=
      (convert_eq_overflow_iff _ _ o).1 ho
    cases hparts.symm.trans hparts'
    cases hread.symm.trans hread'
  · obtain ⟨header, -, hok⟩ := bind_eq_ok_iff.1 hok
    obtain ⟨startTime, -, hok⟩ := bind_eq_ok_iff.1 hok
    obtain ⟨client, -, hok⟩ := bind_eq_ok_iff.1 hok
    obtain ⟨parts', hparts', hok⟩ := bind_eq_ok_iff.1 hok
    cases hparts.symm.trans hparts'
    obtain ⟨read, hread', -⟩ := bind_eq_ok_iff.1 hok
    cases hread.symm.trans hread'

/-- Only the brackets with nothing between them stand for no parameters. -/
theorem parameter?_of_blank_end {c : Char} (hlast : t.getLast? = some c)
    (hc : isBlank c = true) : parameter? t = some t := by
  refine if_neg ?_
  rintro rfl
  cases hlast
  exact absurd hc (by decide)

/-- Parameters that reach up to the metrics mark are read whole, and the metrics behind the mark.
Blanks before the mark stay at the end of the parameters, which are then never taken for none. A mark
with nothing but blanks before it is not found: the entry is faulty, or read up to a later mark. -/
theorem reads_parameters (zone : Zone) (hfirst : FirstMatch [lengthMark] entry before behind)
    (hsecond : FirstMatch [lengthMark] behind statement tail)
    (hblock : UpTo [lengthMark] tail block)
    (hmark : FirstMatch [metricsMark] block parameters rest) :
    statementAndTail entry = .ok (statement.trim, block.trim) ∧
    (∀ c, parameters.getLast? = some c → isBlank c = false →
      ∃ metrics, metrics <+: rest ∧ UpTo [metricsMark] rest.trimEnd metrics ∧
        parametersAndMetrics block.trim = .ok (parameters.trim, metrics) ∧
        ∀ r, convert zone entry = .ok (.emit r) → r.parameter = parameter? parameters.trim) ∧
    (∀ c, parameters.getLast? = some c → isBlank c = true → parameters.isBlankText = false →
      parameters.trimStart ≠ parameters.trim ∧
      ∃ metrics, metrics <+: rest ∧ UpTo [metricsMark] rest.trimEnd metrics ∧
        parametersAndMetrics block.trim = .ok (parameters.trimStart, metrics) ∧
        ∀ r, convert zone entry = .ok (.emit r) → r.parameter = some parameters.trimStart) ∧
    (parameters.isBlankText = true →
      (Free [metricsMark] rest.trimEnd →
        parametersAndMetrics block.trim = .error (.fault (.missingPiece metricsRule 1)) ∧
          ∃ fault, convert zone entry = .error (.fault fault)) ∧
      ∀ inner more, FirstMatch [metricsMark] rest.trimEnd inner more →
        ∃ metrics, UpTo [metricsMark] more metrics ∧
          parametersAndMetrics block.trim = .ok ("# [rt=".toList ++ inner, metrics)) := by
  have hparts := statementAndTail_of_firstMatch hfirst hsecond hblock
  obtain ⟨metrics, hmetrics⟩ := exists_upTo [metricsMark] rest.trimEnd
  have hprefix : metrics <+: rest := hmetrics.isPrefix.trans (Text.trimEnd_isPrefix rest)
  refine ⟨hparts, fun c hlast hc => ?_, fun c hlast hc hblank => ?_, fun hblank => ?_⟩
  · have hblank := Text.isBlankText_of_getLast? hlast hc
    have hread := parametersAndMetrics_of_not_blank hmark hblank hmetrics
    rw [← Text.trim_eq_trimStart hlast hc] at hread
    exact ⟨metrics, hprefix, hmetrics, hread, fun r hr => parameter_of_emit hr hparts hread⟩
  · have hread := parametersAndMetrics_of_not_blank hmark hblank hmetrics
    have hend := Text.getLast?_trimStart hblank
    rw [hlast] at hend
    refine ⟨fun heq => ?_, metrics, hprefix, hmetrics, hread, fun r hr => ?_⟩
    · rw [heq] at hend
      rw [Text.isBlank_of_getLast?_trim hend] at hc
      cases hc
    · rw [parameter_of_emit hr hparts hread, parameter?_of_blank_end hend hc]
  · obtain ⟨hfaulty, hlater⟩ := parametersAndMetrics_of_blank hmark hblank
    refine ⟨fun hfree => ⟨hfaulty hfree, ?_⟩, fun inner more hnext => ?_⟩
    · exact exists_fault_of_metrics hparts (hfaulty hfree)
    · obtain ⟨metrics, hmetrics⟩ := exists_upTo [metricsMark] more
      exact ⟨metrics, hmetrics, hlater inner more metrics hnext hmetrics⟩

end Conversion

def markedEntry (block : String) : Text :=
  ("2022-04-29 16:01:36.670 - [user=u,host=h,port=1,schema=s] [len=1] a [len=2]" ++ block).toList

/-- Blank parameters make an entry faulty, and blanks behind brackets make them parameters. -/
theorem convert_markedEntry :
    (∃ before behind statement tail rest,
      FirstMatch [lengthMark] (markedEntry "  # [rt=5,rows=1]") before behind ∧
      FirstMatch [lengthMark] behind statement tail ∧ Free [lengthMark] tail ∧
      FirstMatch [metricsMark] tail " ".toList rest) ∧
    convert (.fixed 0) (markedEntry "  # [rt=5,rows=1]") =
      .error (.fault (.missingPiece metricsRule 1)) ∧
    convert (.fixed 0) (markedEntry " []   # [rt=5,rows=1]") = .ok (.emit
      ⟨"a".toList, 1651248096670000, "h:1".toList, 5000, "s".toList, some "u".toList,
        some "[]  ".toList⟩) := by
  refine ⟨⟨"2022-04-29 16:01:36.670 - [user=u,host=h,port=1,schema=s] ".toList,
    " a [len=2]  # [rt=5,rows=1]".toList, " a ".toList, "  # [rt=5,rows=1]".toList,
    "5,rows=1]".toList, ?_, ?_, ?_, ?_⟩, ?_, ?_⟩
  · exact ⟨"[len=1] a [len=2]  # [rt=5,rows=1]".toList, by decide +kernel, by decide +kernel,
      by decide +kernel⟩
  · exact ⟨"[len=2]  # [rt=5,rows=1]".toList, by decide +kernel, by decide +kernel,
      by decide +kernel⟩
  · decide +kernel
  · exact firstMatch_metricsMark_iff.2 ⟨by decide +kernel, by decide +kernel⟩
  · decide +kernel
  · decide +kernel

/-- Brackets right before the mark stand for no parameters. -/
theorem reads_parameters_markedEntry :
    ∃ before behind statement tail,
      FirstMatch [lengthMark] (markedEntry " [] # [rt=5,rows=1]") before behind ∧
      FirstMatch [lengthMark] behind statement tail ∧ UpTo [lengthMark] tail tail ∧
      FirstMatch [metricsMark] tail " []".toList "5,rows=1]".toList ∧
      (∃ metrics, parametersAndMetrics tail.trim = .ok ("[]".toList, metrics)) ∧
      ∃ r, convert (.fixed 0) (markedEntry " [] # [rt=5,rows=1]") = .ok (.emit r) ∧
        r.parameter = none := by
  have hfirst : FirstMatch [lengthMark] (markedEntry " [] # [rt=5,rows=1]")
      "2022-04-29 16:01:36.670 - [user=u,host=h,port=1,schema=s] ".toList
      " a [len=2] [] # [rt=5,rows=1]".toList :=
    ⟨"[len=1] a [len=2] [] # [rt=5,rows=1]".toList, by decide +kernel, by decide +kernel,
      by decide +kernel⟩
  have hsecond : FirstMatch [lengthMark] " a [len=2] [] # [rt=5,rows=1]".toList " a ".toList
      " [] # [rt=5,rows=1]".toList :=
    ⟨"[len=2] [] # [rt=5,rows=1]".toList, by decide +kernel, by decide +kernel,
      by decide +kernel⟩
  have hblock : UpTo [lengthMark] " [] # [rt=5,rows=1]".toList " [] # [rt=5,rows=1]".toList :=
    .inr ⟨by decide +kernel, rfl⟩
  have hmark : FirstMatch [metricsMark] " [] # [rt=5,rows=1]".toList " []".toList
      "5,rows=1]".toList := firstMatch_metricsMark_iff.2 ⟨by decide +kernel, by decide +kernel⟩
  have hemit : convert (.fixed 0) (markedEntry " [] # [rt=5,rows=1]") = .ok (.emit
      ⟨"a".toList, 1651248096670000, "h:1".toList, 5000, "s".toList, some "u".toList, none⟩) := by
    decide +kernel
  obtain ⟨-, hwhole, -⟩ := reads_parameters (.fixed 0) hfirst hsecond hblock hmark
  obtain ⟨metrics, -, -, hread, hrecord⟩ := hwhole ']' (by decide) (by decide)
  exact ⟨_, _, _, _, hfirst, hsecond, hblock, hmark, ⟨metrics, hread⟩, _, hemit,
    hrecord _ hemit⟩

end ReplayLog.NodeLog
