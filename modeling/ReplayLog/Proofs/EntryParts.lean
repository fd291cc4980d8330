import Mathlib.Data.List.Basic
import ReplayLog.Dialect.AccessLog
import ReplayLog.Dialect.NodeLog

/-! # Parts of an entry

The parts of an entry stand at fixed places among its pieces, and no place is looked at before the
pieces are known to reach so far. Times are written in milliseconds and kept in microseconds: a time
is either converted exactly, or its product leaves the integers of 64 bits and everything stops. No
other part of an entry can stop more than the run. -/
namespace ReplayLog

namespace Extract

def micros (ms : Int) : Extract Int :=
  if Span.int64.holds (ms * 1000) then .ok (ms * 1000) else .error (.overflow .multiply)

theorem millis_eq_bind (name text : Text) : millis name text = integer name text >>= micros := by
  rw [millis]
  refine bind_congr fun ms => ?_
  rw [Span.multiply, micros]
  split <;> rfl

theorem micros_eq_ok_iff {ms n : Int} :
    micros ms = .ok n ↔ n = ms * 1000 ∧ Span.int64.holds (ms * 1000) := by
  rw [micros]
  split <;> rename_i h
  · exact ⟨fun heq => ⟨(Except.ok.inj heq).symm, h⟩, fun ⟨heq, _⟩ => heq ▸ rfl⟩
  · exact ⟨nofun, fun ⟨_, hms⟩ => absurd hms h⟩

theorem micros_eq_overflow_iff {ms : Int} {o : Overflow} :
    micros ms = .error (.overflow o) ↔ o = .multiply ∧ ¬ Span.int64.holds (ms * 1000) := by
  rw [micros]
  split <;> rename_i h
  · exact ⟨nofun, fun ⟨_, hms⟩ => absurd h hms⟩
  · constructor
    · intro heq
      cases heq
      exact ⟨rfl, h⟩
    · rintro ⟨rfl, -⟩
      rfl

variable {α β : Type}

theorem bind_eq_ok_iff {x : Extract α} {f : α → Extract β} {b : β} :
    x >>= f = .ok b ↔ ∃ a, x = .ok a ∧ f a = .ok b := by
  cases x with
  | ok a =>
    refine ⟨fun h => ⟨a, rfl, h⟩, ?_⟩
    rintro ⟨a', ha, hf⟩
    cases ha
    exact hf
  | error halt =>
    refine ⟨nofun, ?_⟩
    rintro ⟨a, ha, -⟩
    cases ha

/-- Nothing stops but the entry at hand. -/
def GoesOn (x : Extract α) : Prop := ∀ o, x ≠ .error (.overflow o)

theorem GoesOn.ok (a : α) : GoesOn (.ok a) := nofun

theorem GoesOn.fail (fault : EntryFault) : GoesOn (fail fault : Extract α) := nofun

theorem GoesOn.mapError {ε : Type} (x : Except ε α) (f : ε → EntryFault) :
    GoesOn (x.mapError fun e => .fault (f e)) := by
  intro o h
  cases x with
  | ok a => cases h
  | error e => cases h

theorem goesOn_integer (name text : Text) : GoesOn (integer name text) :=
  .mapError _ (EntryFault.integer name text)

theorem goesOn_stamp (form : StampForm) (zone : Zone) (text : Text) :
    GoesOn (stamp form zone text) :=
  .mapError _ EntryFault.stamp

/-- What is not read is a fault, unless everything stops. -/
theorem GoesOn.exists_fault {x : Extract α} (hx : GoesOn x) (hok : ∀ a, x ≠ .ok a) :
    ∃ fault, x = .error (.fault fault) := by
  rcases x with (fault | o) | a
  · exact ⟨fault, rfl⟩
  · exact absurd rfl (hx o)
  · exact absurd rfl (hok a)

/-- Behind a step that goes on, everything stops where the next step stops everything. -/
theorem GoesOn.bind_iff {x : Extract α} (hx : GoesOn x) {f : α → Extract β} {o : Overflow} :
    x >>= f = .error (.overflow o) ↔ ∃ a, x = .ok a ∧ f a = .error (.overflow o) := by
  cases x with
  | ok a =>
    refine ⟨fun h => ⟨a, rfl, h⟩, ?_⟩
    rintro ⟨a', ha, hf⟩
    cases ha
    exact hf
  | error halt =>
    constructor
    · intro h
      cases h
      exact absurd rfl (hx o)
    · rintro ⟨a, ha, -⟩
      cases ha

/-- Before a step that goes on, everything stops where the step before stops everything. -/
theorem GoesOn.iff_bind {x : Extract α} {f : α → Extract β} (hf : ∀ a, GoesOn (f a))
    {o : Overflow} :
    x >>= f = .error (.overflow o) ↔ x = .error (.overflow o) := by
  cases x with
  | ok a => exact ⟨fun h => absurd h (hf a o), nofun⟩
  | error halt =>
    constructor
    · intro h
      cases h
      rfl
    · intro h
      cases h
      rfl

theorem bind_micros_eq_ok_iff {x : Extract Int} {n : Int} :
    x >>= micros = .ok n ↔ ∃ ms, x = .ok ms ∧ n = ms * 1000 ∧ Span.int64.holds (ms * 1000) := by
  simp only [bind_eq_ok_iff, micros_eq_ok_iff]

theorem GoesOn.bind_micros_iff {x : Extract Int} (hx : GoesOn x) {o : Overflow} :
    x >>= micros = .error (.overflow o) ↔
      ∃ ms, x = .ok ms ∧ o = .multiply ∧ ¬ Span.int64.holds (ms * 1000) := by
  simp only [hx.bind_iff, micros_eq_overflow_iff]

end Extract

/-- The rules on a statement have the last word, and they stop nothing. -/
theorem goesOn_rules (rules : List RejectionRule) (statement : Text) (parameter : Option Text)
    (r : Record) : Extract.GoesOn (match firstRejection rules statement parameter with
      | some reason => pure (Outcome.ignore reason)
      | none => pure (Outcome.emit r)) := by
  split <;> exact .ok _

namespace AccessLog

open Extract

theorem Header.ofWords_eq (words : List Text) :
    ofWords words = if h : 8 ≤ words.length then
      .ok ⟨words[0], words[1], words[3], words[6], words[7]⟩ else headerRule.fail words := by
  rcases words with
    _ | ⟨a, _ | ⟨b, _ | ⟨c, _ | ⟨d, _ | ⟨e, _ | ⟨f, _ | ⟨g, _ | ⟨i, words⟩⟩⟩⟩⟩⟩⟩⟩ <;>
    simp [ofWords]

theorem Header.goesOn_ofWords (words : List Text) : GoesOn (ofWords words) := by
  rw [ofWords_eq]
  split
  · exact .ok _
  · exact .fail _

def Header.milliseconds (h : Header) : Extract Int :=
  match Pattern.cut Pattern.keyValue h.totalTime with
  | _ :: value :: _ => integer "Total_time".toList value
  | pieces => totalTimeRule.fail pieces

theorem Header.milliseconds_of_cut {h : Header} {pieces : List Text}
    (hcut : Pattern.cut Pattern.keyValue h.totalTime = pieces) :
    h.milliseconds = if _h : 2 ≤ pieces.length then integer "Total_time".toList pieces[1]
      else totalTimeRule.fail pieces := by
  rw [milliseconds, hcut]
  rcases pieces with _ | ⟨a, _ | ⟨b, pieces⟩⟩ <;> simp

theorem Header.execTime_eq_bind (h : Header) : h.execTime = h.milliseconds >>= micros := by
  rw [execTime, milliseconds]
  rcases Pattern.cut Pattern.keyValue h.totalTime with _ | ⟨a, _ | ⟨b, pieces⟩⟩
  · rfl
  · rfl
  · exact millis_eq_bind _ _

theorem Header.goesOn_milliseconds (h : Header) : GoesOn h.milliseconds := by
  rw [milliseconds_of_cut rfl]
  split
  · exact goesOn_integer _ _
  · exact .fail _

/-- The bracket that opens the stamp and the one that closes it go, whatever characters they are. -/
theorem Header.exists_startTimeText (h : Header) :
    ∃ first date time last, first.length ≤ 1 ∧ last.length ≤ 1 ∧ h.date = first ++ date ∧
      h.time = time ++ last ∧ h.startTimeText = date ++ ' ' :: time := by
  refine ⟨h.date.take 1, h.date.drop 1, h.time.dropLast, h.time.drop (h.time.length - 1),
    List.length_take_le 1 _, ?_, (List.take_append_drop 1 h.date).symm, ?_, rfl⟩
  · rw [List.length_drop]
    omega
  · rw [List.dropLast_eq_take, List.take_append_drop]

theorem statement_of_cut {entry : Text} {pieces : List Text}
    (hcut : Pattern.cut [requestStamp, statementEnd] entry = pieces) :
    statement entry = if _h : 2 ≤ pieces.length then .ok pieces[1].trim
      else statementRule.fail pieces := by
  rw [statement, hcut]
  rcases pieces with _ | ⟨a, _ | ⟨b, pieces⟩⟩ <;> simp

theorem goesOn_statement (entry : Text) : GoesOn (statement entry) := by
  rw [statement_of_cut rfl]
  split
  · exact .ok _
  · exact .fail _

/-- A word or a piece is read where there are as many as its rule wants, and else it is missing. -/
structure PartsRead (entry : Text) : Prop where
  header : ∀ words, Header.ofWords words = if h : 8 ≤ words.length then
      .ok ⟨words[0], words[1], words[3], words[6], words[7]⟩
    else .error (.fault (.missingPiece headerRule words.length))
  startTimeText : ∀ h : Header, ∃ first date time last, first.length ≤ 1 ∧ last.length ≤ 1 ∧
    h.date = first ++ date ∧ h.time = time ++ last ∧ h.startTimeText = date ++ ' ' :: time
  statement :
    let pieces := Pattern.cut [requestStamp, statementEnd] entry
    statement entry = if _h : 2 ≤ pieces.length then .ok pieces[1].trim
      else .error (.fault (.missingPiece statementRule pieces.length))
  totalTime : ∀ h : Header,
    let pieces := Pattern.cut Pattern.keyValue h.totalTime
    h.milliseconds = if _h : 2 ≤ pieces.length then integer "Total_time".toList pieces[1]
      else .error (.fault (.missingPiece totalTimeRule pieces.length))

theorem partsRead (entry : Text) : PartsRead entry where
  header := Header.ofWords_eq
  startTimeText := Header.exists_startTimeText
  statement := statement_of_cut rfl
  totalTime _ := Header.milliseconds_of_cut rfl

/-- Everything stops at the total time only, and only where the parts read before it are right. -/
theorem convert_eq_overflow_iff (zone : Zone) (schema entry : Text) (o : Overflow) :
    convert zone schema entry = .error (.overflow o) ↔
      ∃ header, Header.ofWords (Header.words entry) = .ok header ∧
      ∃ startTime, stamp .comma zone header.startTimeText = .ok startTime ∧
      ∃ text, statement entry = .ok text ∧
      ∃ ms, header.milliseconds = .ok ms ∧ o = .multiply ∧ ¬ Span.int64.holds (ms * 1000) := by
  rw [convert, (Header.goesOn_ofWords _).bind_iff]
  refine exists_congr fun header => and_congr_right fun _ => ?_
  rw [(goesOn_stamp .comma zone _).bind_iff]
  refine exists_congr fun startTime => and_congr_right fun _ => ?_
  rw [(goesOn_statement entry).bind_iff]
  refine exists_congr fun text => and_congr_right fun _ => ?_
  refine (GoesOn.iff_bind fun execTime => goesOn_rules _ _ _ _).trans ?_
  rw [header.execTime_eq_bind]
  exact header.goesOn_milliseconds.bind_micros_iff

theorem execTime_of_emit {zone : Zone} {schema entry : Text} {r : Record}
    (h : convert zone schema entry = .ok (.emit r)) :
    ∃ header ms, Header.ofWords (Header.words entry) = .ok header ∧ header.milliseconds = .ok ms ∧
      r.execTime = ms * 1000 := by
  obtain ⟨header, hheader, h⟩ := bind_eq_ok_iff.1 h
  obtain ⟨startTime, -, h⟩ := bind_eq_ok_iff.1 h
  obtain ⟨text, -, h⟩ := bind_eq_ok_iff.1 h
  obtain ⟨execTime, htime, h⟩ := bind_eq_ok_iff.1 h
  rw [header.execTime_eq_bind, bind_micros_eq_ok_iff] at htime
  obtain ⟨ms, hms, htime, -⟩ := htime
  split at h <;> cases h
  exact ⟨header, ms, hheader, hms, htime⟩

end AccessLog

namespace NodeLog

open Extract

theorem Header.ofWords_eq (words : List Text) :
    ofWords words = if h : 4 ≤ words.length then .ok ⟨words[0], words[1], words[3]⟩
      else headerRule.fail words := by
  rcases words with _ | ⟨a, _ | ⟨b, _ | ⟨c, _ | ⟨d, words⟩⟩⟩⟩ <;> simp [ofWords]

theorem Header.goesOn_ofWords (words : List Text) : GoesOn (ofWords words) := by
  rw [ofWords_eq]
  split
  · exact .ok _
  · exact .fail _

theorem Client.ofBlock_of_cut {block : Text} {pieces : List Text}
    (hcut : Pattern.cut clientMarks block = pieces) :
    ofBlock block = if _h : 8 ≤ pieces.length then
      .ok ⟨pieces[1], pieces[3] ++ ':' :: pieces[5], pieces[7]⟩ else clientRule.fail pieces := by
  rw [ofBlock, hcut]
  rcases pieces with
    _ | ⟨a, _ | ⟨b, _ | ⟨c, _ | ⟨d, _ | ⟨e, _ | ⟨f, _ | ⟨g, _ | ⟨i, pieces⟩⟩⟩⟩⟩⟩⟩⟩ <;>
    simp

theorem Client.goesOn_ofBlock (block : Text) : GoesOn (ofBlock block) := by
  rw [ofBlock_of_cut rfl]
  split
  · exact .ok _
  · exact .fail _

theorem statementAndTail_of_cut {entry : Text} {pieces : List Text}
    (hcut : Pattern.cut [lengthMark] entry = pieces) :
    statementAndTail entry = if _h : 3 ≤ pieces.length then .ok (pieces[1].trim, pieces[2].trim)
      else lengthRule.fail pieces := by
  rw [statementAndTail, hcut]
  rcases pieces with _ | ⟨a, _ | ⟨b, _ | ⟨c, pieces⟩⟩⟩ <;> simp

theorem goesOn_statementAndTail (entry : Text) : GoesOn (statementAndTail entry) := by
  rw [statementAndTail_of_cut rfl]
  split
  · exact .ok _
  · exact .fail _

theorem parametersAndMetrics_of_cut {tail : Text} {pieces : List Text}
    (hcut : Pattern.cut [metricsMark] tail = pieces) :
    parametersAndMetrics tail = if _h : 2 ≤ pieces.length then .ok (pieces[0], pieces[1])
      else metricsRule.fail pieces := by
  rw [parametersAndMetrics, hcut]
  rcases pieces with _ | ⟨a, _ | ⟨b, pieces⟩⟩ <;> simp

theorem goesOn_parametersAndMetrics (tail : Text) : GoesOn (parametersAndMetrics tail) := by
  rw [parametersAndMetrics_of_cut rfl]
  split
  · exact .ok _
  · exact .fail _

def milliseconds (metrics : Text) : Extract Int :=
  match Pattern.cut Pattern.keyValue metrics with
  | value :: _ => integer "rt".toList value
  | pieces => responseTimeRule.fail pieces

/-- Cutting leaves a piece, so the response time is always there to be read. -/
theorem milliseconds_of_cut {metrics : Text} {pieces : List Text}
    (hcut : Pattern.cut Pattern.keyValue metrics = pieces) :
    ∃ h : 0 < pieces.length, milliseconds metrics = integer "rt".toList pieces[0] := by
  have hpos := Pattern.length_cut_pos Pattern.keyValue metrics
  rw [hcut] at hpos
  refine ⟨hpos, ?_⟩
  rw [milliseconds, hcut]
  cases pieces with
  | nil => cases hpos
  | cons value pieces => rfl

theorem execTime_eq_bind (metrics : Text) : execTime metrics = milliseconds metrics >>= micros := by
  rw [execTime, milliseconds]
  cases Pattern.cut Pattern.keyValue metrics with
  | nil => rfl
  | cons value pieces => exact millis_eq_bind _ _

theorem goesOn_milliseconds (metrics : Text) : GoesOn (milliseconds metrics) := by
  obtain ⟨_, h⟩ := milliseconds_of_cut (Eq.refl (Pattern.cut Pattern.keyValue metrics))
  rw [h]
  exact goesOn_integer _ _

/-- A word or a piece is read where there are as many as its rule wants, and else it is missing. -/
structure PartsRead (entry : Text) : Prop where
  header : ∀ words, Header.ofWords words = if h : 4 ≤ words.length then
      .ok ⟨words[0], words[1], words[3]⟩
    else .error (.fault (.missingPiece headerRule words.length))
  client : ∀ block,
    let pieces := Pattern.cut clientMarks block
    Client.ofBlock block = if _h : 8 ≤ pieces.length then
        .ok ⟨pieces[1], pieces[3] ++ ':' :: pieces[5], pieces[7]⟩
      else .error (.fault (.missingPiece clientRule pieces.length))
  statementAndTail :
    let pieces := Pattern.cut [lengthMark] entry
    statementAndTail entry = if _h : 3 ≤ pieces.length then .ok (pieces[1].trim, pieces[2].trim)
      else .error (.fault (.missingPiece lengthRule pieces.length))
  parametersAndMetrics : ∀ tail,
    let pieces := Pattern.cut [metricsMark] tail
    parametersAndMetrics tail = if _h : 2 ≤ pieces.length then .ok (pieces[0], pieces[1])
      else .error (.fault (.missingPiece metricsRule pieces.length))
  responseTime : ∀ metrics,
    let pieces := Pattern.cut Pattern.keyValue metrics
    ∃ _h : 0 < pieces.length, milliseconds metrics = integer "rt".toList pieces[0]

theorem partsRead (entry : Text) : PartsRead entry where
  header := Header.ofWords_eq
  client _ := Client.ofBlock_of_cut rfl
  statementAndTail := statementAndTail_of_cut rfl
  parametersAndMetrics _ := parametersAndMetrics_of_cut rfl
  responseTime _ := milliseconds_of_cut rfl

/-- Everything stops at the response time only, and only where all other parts are right. -/
theorem convert_eq_overflow_iff (zone : Zone) (entry : Text) (o : Overflow) :
    convert zone entry = .error (.overflow o) ↔
      ∃ header, Header.ofWords (Header.words entry) = .ok header ∧
      ∃ startTime, stamp .point zone header.startTimeText = .ok startTime ∧
      ∃ client, Client.ofBlock header.block = .ok client ∧
      ∃ parts, statementAndTail entry = .ok parts ∧
      ∃ behind, parametersAndMetrics parts.2 = .ok behind ∧
      ∃ ms, milliseconds behind.2 = .ok ms ∧ o = .multiply ∧ ¬ Span.int64.holds (ms * 1000) := by
  rw [convert, (Header.goesOn_ofWords _).bind_iff]
  refine exists_congr fun header => and_congr_right fun _ => ?_
  rw [(goesOn_stamp .point zone _).bind_iff]
  refine exists_congr fun startTime => and_congr_right fun _ => ?_
  rw [(Client.goesOn_ofBlock _).bind_iff]
  refine exists_congr fun client => and_congr_right fun _ => ?_
  rw [(goesOn_statementAndTail entry).bind_iff]
  refine exists_congr fun parts => and_congr_right fun _ => ?_
  rw [(goesOn_parametersAndMetrics _).bind_iff]
  refine exists_congr fun behind => and_congr_right fun _ => ?_
  refine (GoesOn.iff_bind fun time => goesOn_rules _ _ _ _).trans ?_
  rw [execTime_eq_bind]
  exact (goesOn_milliseconds _).bind_micros_iff

theorem execTime_of_emit {zone : Zone} {entry : Text} {r : Record}
    (h : convert zone entry = .ok (.emit r)) :
    ∃ parts behind ms, statementAndTail entry = .ok parts ∧
      parametersAndMetrics parts.2 = .ok behind ∧ milliseconds behind.2 = .ok ms ∧
      r.execTime = ms * 1000 := by
  obtain ⟨header, -, h⟩ := bind_eq_ok_iff.1 h
  obtain ⟨startTime, -, h⟩ := bind_eq_ok_iff.1 h
  obtain ⟨client, -, h⟩ := bind_eq_ok_iff.1 h
  obtain ⟨parts, hparts, h⟩ := bind_eq_ok_iff.1 h
  obtain ⟨behind, hbehind, h⟩ := bind_eq_ok_iff.1 h
  obtain ⟨time, htime, h⟩ := bind_eq_ok_iff.1 h
  rw [execTime_eq_bind, bind_micros_eq_ok_iff] at htime
  obtain ⟨ms, hms, htime, -⟩ := htime
  dsimp only at h
  split at h <;> cases h
  exact ⟨parts, behind, ms, hparts, hbehind, hms, htime⟩

end NodeLog

/-- An entry is converted or a fault says why it is not, except where its time is written with more
milliseconds than the integers of 64 bits have microseconds for: there everything stops. A word or a
piece is read where there are as many as its rule wants, and the time of a record is exact. -/
theorem converts_unless_overflow (zone : Zone) (schema entry : Text) :
    AccessLog.PartsRead entry ∧ NodeLog.PartsRead entry ∧
    (∀ o, AccessLog.convert zone schema entry = .error (.overflow o) ↔
      ∃ header, AccessLog.Header.ofWords (AccessLog.Header.words entry) = .ok header ∧
      ∃ startTime, Extract.stamp .comma zone header.startTimeText = .ok startTime ∧
      ∃ text, AccessLog.statement entry = .ok text ∧
      ∃ ms, header.milliseconds = .ok ms ∧ o = .multiply ∧ ¬ Span.int64.holds (ms * 1000)) ∧
    (∀ r, AccessLog.convert zone schema entry = .ok (.emit r) →
      ∃ header ms, AccessLog.Header.ofWords (AccessLog.Header.words entry) = .ok header ∧
        header.milliseconds = .ok ms ∧ r.execTime = ms * 1000) ∧
    (∀ o, NodeLog.convert zone entry = .error (.overflow o) ↔
      ∃ header, NodeLog.Header.ofWords (NodeLog.Header.words entry) = .ok header ∧
      ∃ startTime, Extract.stamp .point zone header.startTimeText = .ok startTime ∧
      ∃ client, NodeLog.Client.ofBlock header.block = .ok client ∧
      ∃ parts, NodeLog.statementAndTail entry = .ok parts ∧
      ∃ behind, NodeLog.parametersAndMetrics parts.2 = .ok behind ∧
      ∃ ms, NodeLog.milliseconds behind.2 = .ok ms ∧ o = .multiply ∧
        ¬ Span.int64.holds (ms * 1000)) ∧
    (∀ r, NodeLog.convert zone entry = .ok (.emit r) →
      ∃ parts behind ms, NodeLog.statementAndTail entry = .ok parts ∧
        NodeLog.parametersAndMetrics parts.2 = .ok behind ∧
        NodeLog.milliseconds behind.2 = .ok ms ∧ r.execTime = ms * 1000) := by
  refine ⟨AccessLog.partsRead entry, NodeLog.partsRead entry,
    AccessLog.convert_eq_overflow_iff zone schema entry, ?_,
    NodeLog.convert_eq_overflow_iff zone entry, ?_⟩
  · intro r h
    exact AccessLog.execTime_of_emit h
  · intro r h
    exact NodeLog.execTime_of_emit h

def AccessLog.timedEntry (ms : String) : Text :=
  ("[2023-02-10 00:03:15,398] I [t] L - C T=" ++ ms ++
    " [2023-02-10 00:03:15 398] 7 a\\;").toList

/-- The largest integer of 64 bits is read as a number of milliseconds, and then it stops everything
instead of being a fault of its entry. -/
theorem AccessLog.convert_longestEntry :
    let entry := timedEntry "9223372036854775807"
    let header : Header := ⟨"[2023-02-10".toList, "00:03:15,398]".toList, "[t]".toList, "C".toList,
      "T=9223372036854775807".toList⟩
    Header.ofWords (Header.words entry) = .ok header ∧
      header.milliseconds = .ok 9223372036854775807 ∧
      convert (.fixed 0) [] entry = .error (.overflow .multiply) := by
  decide +kernel

/-- The largest number of milliseconds that has microseconds is converted, and exactly. -/
theorem converts_unless_overflow_longEntry :
    let entry := AccessLog.timedEntry "9223372036854775"
    (∀ o, AccessLog.convert (.fixed 0) [] entry ≠ .error (.overflow o)) ∧
      ∃ r, AccessLog.convert (.fixed 0) [] entry = .ok (.emit r) ∧
        r.execTime = 9223372036854775000 := by
  intro entry
  obtain ⟨-, -, hstops, htime, -, -⟩ := converts_unless_overflow (.fixed 0) [] entry
  let header : AccessLog.Header := ⟨"[2023-02-10".toList, "00:03:15,398]".toList, "[t]".toList,
    "C".toList, "T=9223372036854775".toList⟩
  have hheader : AccessLog.Header.ofWords (AccessLog.Header.words entry) = .ok header := by
    decide +kernel
  have hms : header.milliseconds = .ok 9223372036854775 := by decide +kernel
  have hemit : AccessLog.convert (.fixed 0) [] entry = .ok (.emit
      ⟨"a".toList, 1675987395398000, "C[t]".toList, 9223372036854775000, [], some [], none⟩) := by
    decide +kernel
  constructor
  · intro o ho
    obtain ⟨header', hheader', -, -, -, -, ms, hms', -, hlong⟩ := (hstops o).1 ho
    cases hheader.symm.trans hheader'
    cases hms.symm.trans hms'
    exact hlong (by decide)
  · refine ⟨_, hemit, ?_⟩
    obtain ⟨header', ms, hheader', hms', htime⟩ := htime _ hemit
    cases hheader.symm.trans hheader'
    cases hms.symm.trans hms'
    exact htime

end ReplayLog
