import ReplayLog.Dialect.AccessLog
import ReplayLog.Proofs.PrintedParts
import ReplayLog.Proofs.WholeEntries

/-! # Statements in access logs

An access log writes a statement behind a header of words and a request stamp, and closes it. Its
entry is cut at the blanks of the header and, apart from that, at the request stamp and at the end
of the statement; both cuts are the ones meant, whatever else the statement holds. -/
namespace ReplayLog.AccessLog

def separators : List Pattern := [requestStamp, statementEnd]

structure LoggedStatement where
  time : LocalTime
  millis : Nat
  level : Text
  thread : Text
  logger : Text
  client : Text
  /-- In milliseconds. -/
  totalTime : Int
  /-- What stands between the total time and the request stamp. -/
  rest : Text
  /-- The date and the time in the request stamp. -/
  request : Text
  id : Text
  sql : Text
  /-- What stands behind the end of the statement. -/
  suffix : Text

namespace LoggedStatement

def words (st : LoggedStatement) : List Text :=
  ['[' :: st.time.date.print, st.time.printClock ++ ',' :: (padded 3 st.millis ++ [']']), st.level,
    st.thread, st.logger, ['-'], st.client, "Total_time=".toList ++ Integer.print st.totalTime]

def before (st : LoggedStatement) : Text := [' '].intercalate st.words ++ ' ' :: (st.rest ++ [' '])

def text (st : LoggedStatement) : Text :=
  st.before ++ '[' :: (st.request ++ "] ".toList ++ st.id ++ ' ' ::
    (st.sql ++ '\\' :: ';' :: st.suffix))

/-- The statement can be told from what its log writes around it. -/
structure Valid (st : LoggedStatement) : Prop where
  century : 2000 ≤ st.time.date.year ∧ st.time.date.year ≤ 2099
  printable : st.time.Printable st.millis
  words : ∀ w ∈ [st.level, st.thread, st.logger, st.client],
    w ≠ [] ∧ w.any isBlank = false
  totalTime : Span.int64.holds (st.totalTime * 1000) = true
  before : Pattern.Free separators st.before
  request : Step.follow (dateSteps ++ Step.literal " " ++ Step.digits 3) st.request = some []
  id : st.id.all isDecimalDigit = true
  sql : Pattern.Free separators st.sql
  trimmed : ∀ line ∈ st.text.lines, line.trim = line
  continuing : ∀ line ∈ st.text.lines.tail, boundary.opens line = false

/-- The start of the statement in a zone of a fixed offset, in microseconds. -/
def startTime (st : LoggedStatement) (east : Int) : Int :=
  (st.time.seconds - east) * 1000000 + st.millis * 1000

def record (st : LoggedStatement) (east : Int) (schema : Text) : Record :=
  ⟨st.sql.trim, st.startTime east, st.client ++ st.thread, st.totalTime * 1000, schema, some [],
    none⟩

end LoggedStatement

section Header

namespace LoggedStatement

variable {st : LoggedStatement}

theorem words_not_blank (h : st.Valid) :
    ∀ w ∈ st.words, w ≠ [] ∧ ∀ c ∈ w, isBlank c = false := by
  have hwords : ∀ w ∈ [st.level, st.thread, st.logger, st.client],
      w ≠ [] ∧ ∀ c ∈ w, isBlank c = false :=
    fun w hw => ⟨(h.words w hw).1, not_blank_of_any (h.words w hw).2⟩
  simp only [List.forall_mem_cons, List.not_mem_nil, false_implies, implies_true, and_true]
    at hwords
  obtain ⟨hlevel, hthread, hlogger, hclient⟩ := hwords
  simp only [words, List.forall_mem_cons, List.not_mem_nil, false_implies, implies_true, and_true]
  refine ⟨⟨by simp, ?_⟩, ⟨by simp, ?_⟩, hlevel, hthread, hlogger,
    ⟨by simp, by decide⟩, hclient, ⟨by simp, ?_⟩⟩
  · simp only [Date.print, List.forall_mem_cons, List.forall_mem_append]
    exact ⟨by decide, padded_not_blank _ _, by decide, padded_not_blank _ _, by decide,
      padded_not_blank _ _⟩
  · simp only [LocalTime.printClock, List.forall_mem_cons, List.forall_mem_append]
    exact ⟨⟨padded_not_blank _ _, by decide, padded_not_blank _ _, by decide,
      padded_not_blank _ _⟩, by decide, padded_not_blank _ _, by decide, by simp⟩
  · rw [List.forall_mem_append]
    exact ⟨not_blank_of_any (by decide), print_not_blank _⟩

theorem header_eq (h : st.Valid) :
    Header.ofWords (Header.words st.text) =
      .ok ⟨'[' :: st.time.date.print, st.time.printClock ++ ',' :: (padded 3 st.millis ++ [']']),
        st.thread, st.client, "Total_time=".toList ++ Integer.print st.totalTime⟩ := by
  rw [Header.words, text, before, List.append_assoc, List.cons_append,
    cut_blanks_words (by simp [words]) (words_not_blank h)]
  rfl

/-- The first two words hold the stamp between their brackets. -/
theorem startTimeText_eq (thread client totalTime : Text) :
    Header.startTimeText ⟨'[' :: st.time.date.print,
      st.time.printClock ++ ',' :: (padded 3 st.millis ++ [']']), thread, client, totalTime⟩ =
        Stamp.print st.time st.millis := by
  have hlast : st.time.printClock ++ ',' :: (padded 3 st.millis ++ [']']) =
      (st.time.printClock ++ ',' :: padded 3 st.millis) ++ [']'] := by simp
  rw [Header.startTimeText]
  dsimp only
  rw [hlast, List.dropLast_concat]
  rfl

/-- A total time is cut at its equals sign and nowhere else. -/
theorem cut_totalTime (n : Int) :
    Pattern.cut Pattern.keyValue ("Total_time=".toList ++ Integer.print n) =
      ["Total_time".toList, Integer.print n] := by
  have hname : ∀ c ∈ "Total_time".toList, ∀ p ∈ Pattern.keyValue, p.first c = false := by
    have hall : ("Total_time".toList.all fun c => Pattern.keyValue.all (!·.first c)) = true := by
      decide
    simpa using hall
  have hmatch : Pattern.restOfAny? Pattern.keyValue ('=' :: Integer.print n) =
      some (Integer.print n) := rfl
  have := Pattern.cut_of_not_first hname hmatch
  rwa [Pattern.cut_eq_singleton (print_not_first n)] at this

theorem execTime_eq (h : st.Valid) (date time thread client : Text) :
    Header.execTime ⟨date, time, thread, client,
      "Total_time=".toList ++ Integer.print st.totalTime⟩ = .ok (st.totalTime * 1000) := by
  rw [Header.execTime]
  dsimp only
  rw [cut_totalTime]
  dsimp only
  rw [Extract.millis_print h.totalTime]

end LoggedStatement

end Header

section Statement

/-- The request stamp takes its digits, its number and the space behind it. -/
theorem requestStamp_rest? {request id : Text}
    (hrequest : Step.follow (dateSteps ++ Step.literal " " ++ Step.digits 3) request = some [])
    (hid : ∀ c ∈ id, isDecimalDigit c = true) (t : Text) :
    requestStamp.rest? ('[' :: (request ++ "] ".toList ++ id ++ ' ' :: t)) = some t := by
  have hones : ∀ p, Step.run p ∉ dateSteps ++ Step.literal " " ++ Step.digits 3 := by
    intro p
    simp [dateSteps, Step.literal, Step.digits]
  have hdate := Step.follow_append_text hones hrequest ("] ".toList ++ id ++ ' ' :: t)
  have hnumber : Step.follow [.run isDecimalDigit] (id ++ ' ' :: t) = some (' ' :: t) := by
    rw [Step.follow, List.dropWhile_append_of_pos hid, List.dropWhile_cons_of_neg (by decide),
      Step.follow]
  have hspace : Step.follow (Step.literal " ") (' ' :: t) = some t := Step.follow_literal " " t
  change Step.follow (dateSteps ++ Step.literal " " ++ Step.digits 3 ++ Step.literal "] " ++
    [.run isDecimalDigit] ++ Step.literal " ") (request ++ "] ".toList ++ id ++ ' ' :: t) = some t
  rw [List.append_assoc request, List.append_assoc request, Step.follow_append, Step.follow_append,
    Step.follow_append, hdate, Option.bind_some, List.nil_append, List.append_assoc,
    Step.follow_literal, Option.bind_some, hnumber, Option.bind_some, hspace]

namespace LoggedStatement

variable {st : LoggedStatement}

theorem statement_eq (h : st.Valid) : statement st.text = .ok st.sql.trim := by
  have hopen : ∀ p ∈ separators, ∀ step ∈ p.steps, step.takes '[' = false := by decide
  have hclose : ∀ p ∈ separators, ∀ step ∈ p.steps, step.takes '\\' = false := by decide
  have hstamp := requestStamp_rest? h.request (List.all_eq_true.1 h.id)
    (st.sql ++ '\\' :: ';' :: st.suffix)
  have hmatch : Pattern.restOfAny? separators ('[' :: (st.request ++ "] ".toList ++ st.id ++ ' ' ::
      (st.sql ++ '\\' :: ';' :: st.suffix))) = some (st.sql ++ '\\' :: ';' :: st.suffix) := by
    rw [Pattern.restOfAny?, separators, List.findSome?_cons, hstamp]
  have hend : Pattern.restOfAny? separators ('\\' :: ';' :: st.suffix) = some st.suffix := rfl
  have hcut : Pattern.cut separators st.text =
      st.before :: st.sql :: Pattern.cut separators st.suffix := by
    rw [text, Pattern.cut_of_free h.before hopen hmatch, Pattern.cut_of_free h.sql hclose hend]
  rw [separators] at hcut
  rw [statement, hcut]

end LoggedStatement

end Statement

section Opening

theorem follow_dateSteps {t : LocalTime} (h : 2000 ≤ t.date.year ∧ t.date.year ≤ 2099)
    (more : Text) :
    Step.follow dateSteps (t.date.print ++ ' ' :: (t.printClock ++ more)) = some more := by
  have hyear : 2000 ≤ t.date.year.toNat ∧ t.date.year.toNat ≤ 2099 := by omega
  have hdash (more : Text) : Step.follow (Step.literal "-") ('-' :: more) = some more :=
    Step.follow_literal "-" more
  have hspace (more : Text) : Step.follow (Step.literal " ") (' ' :: more) = some more :=
    Step.follow_literal " " more
  have hcolon (more : Text) : Step.follow (Step.literal ":") (':' :: more) = some more :=
    Step.follow_literal ":" more
  rw [Date.print, LocalTime.printClock, padded_four hyear, dateSteps]
  simp only [List.append_assoc, List.cons_append, Step.follow_append, Step.follow_literal,
    Step.follow_padded, hdash, hspace, hcolon, Option.bind_some]

namespace LoggedStatement

variable {st : LoggedStatement}

def opening (st : LoggedStatement) : Text := '[' :: (Stamp.print st.time st.millis ++ "] ".toList)

theorem opens_opening (h : st.Valid) (t : Text) : boundary.opens (st.opening ++ t) = true := by
  have hmillis (more : Text) : Step.follow (Step.literal ",") (',' :: more) = some more :=
    Step.follow_literal "," more
  have hfollow : Step.follow (dateSteps ++ Step.literal "," ++ Step.digits 3 ++ Step.literal "] ")
      (Stamp.print st.time st.millis ++ "] ".toList ++ t) = some t := by
    rw [Stamp.print]
    simp only [List.append_assoc, List.cons_append]
    simp only [Step.follow_append, follow_dateSteps h.century, hmillis, Step.follow_padded,
      Step.follow_literal, Option.bind_some]
  have hrest : boundary.rest? (st.opening ++ t) = some t := by
    rw [opening, List.cons_append, boundary, Pattern.ofChar, Pattern.rest?, if_pos (by simp)]
    exact hfollow
  rw [Pattern.opens, hrest]
  rfl

theorem text_eq_opening (st : LoggedStatement) : ∃ t, st.text = st.opening ++ t := by
  have hbracket : "] ".toList = [']', ' '] := by decide
  refine ⟨[' '].intercalate (st.words.drop 2) ++ ' ' :: (st.rest ++ ' ' :: '[' ::
    (st.request ++ "] ".toList ++ st.id ++ ' ' :: (st.sql ++ '\\' :: ';' :: st.suffix))), ?_⟩
  rw [text, before, words, opening, Stamp.print, hbracket]
  simp only [List.drop_succ_cons, List.drop_zero, List.intercalate_cons_cons, List.append_assoc,
    List.cons_append, List.nil_append]

theorem lineFeed_not_mem_opening (st : LoggedStatement) : '\n' ∉ st.opening := by
  have hpadded (width n : Nat) : '\n' ∉ padded width n := Stamp.not_mem_padded (by decide) width n
  simp [opening, Stamp.print, Date.print, LocalTime.printClock, hpadded]

/-- Within the limits, the entry of a statement is gathered as one. -/
theorem whole (h : st.Valid) {rule : SegmentRule} (hlines : st.text.lines.length ≤ rule.maxLines)
    (hbytes : st.text.byteSize ≤ rule.maxBytes) : Whole rule boundary.opens st.text := by
  obtain ⟨t, htext⟩ := text_eq_opening st
  exact .of_opening (lineFeed_not_mem_opening st) htext (opens_opening h) h.trimmed h.continuing
    hlines hbytes

def outcome (st : LoggedStatement) (east : Int) (schema : Text) : Outcome :=
  match firstRejection rules st.sql.trim none with
  | some reason => .ignore reason
  | none => .emit (st.record east schema)

theorem convert_text (h : st.Valid) {east : Int} (heast : -86400 < east ∧ east < 86400)
    (schema : Text) : convert (.fixed east) schema st.text = .ok (st.outcome east schema) := by
  have hstamp : Extract.stamp .comma (.fixed east) (Stamp.print st.time st.millis) =
      .ok (st.startTime east) := by
    rw [Extract.stamp, Stamp.read_print h.printable heast]
    rfl
  rw [convert, header_eq h]
  change (Extract.stamp .comma (.fixed east) (Header.startTimeText ⟨_, _, _, _, _⟩) >>= _) = _
  rw [startTimeText_eq, hstamp]
  change (statement st.text >>= _) = _
  rw [statement_eq h]
  change (Header.execTime ⟨_, _, _, _, _⟩ >>= _) = _
  rw [execTime_eq h]
  change (match firstRejection rules st.sql.trim none with
    | some reason => Except.ok (Outcome.ignore reason)
    | none => Except.ok (Outcome.emit (st.record east schema))) = _
  rw [outcome]
  split <;> rfl

end LoggedStatement

end Opening

end ReplayLog.AccessLog
