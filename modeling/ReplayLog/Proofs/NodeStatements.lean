import ReplayLog.Dialect.NodeLog
import ReplayLog.Proofs.PrintedParts
import ReplayLog.Proofs.WholeEntries

/-! # Statements in logs of compute nodes

A compute node writes the client before a statement, a length mark on either side of it, and its
parameters and metrics behind it. The header is cut at blanks, the client at commas, equals signs and
brackets, the entry at length marks and what follows at the metrics mark. Each cut finds what the log
put there, although the statement and the parameters may hold all of these characters. -/
namespace ReplayLog.NodeLog

structure LoggedStatement where
  time : LocalTime
  millis : Nat
  user : Text
  host : Text
  port : Text
  schema : Text
  /-- What stands between the client and the first length mark. -/
  flags : Text
  sqlLength : Text
  sql : Text
  parametersLength : Text
  parameters : Text
  /-- In milliseconds. -/
  responseTime : Int
  /-- The metrics behind the response time, and whatever follows them. -/
  rest : Text

def named (name : String) (value : Text) : Text := name.toList ++ '=' :: value

def timed (n : Int) : Text := ' ' :: '#' :: ' ' :: '[' :: named "rt" (Integer.print n)

namespace LoggedStatement

def block (st : LoggedStatement) : Text :=
  '[' :: (named "user" st.user ++ ',' :: (named "host" st.host ++ ',' ::
    (named "port" st.port ++ ',' :: (named "schema" st.schema ++ [']']))))

def words (st : LoggedStatement) : List Text :=
  [st.time.date.print, st.time.printClock ++ '.' :: padded 3 st.millis, ['-'], st.block]

def before (st : LoggedStatement) : Text := [' '].intercalate st.words ++ ' ' :: (st.flags ++ [' '])

def text (st : LoggedStatement) : Text :=
  st.before ++ '[' :: ("len=".toList ++ st.sqlLength ++ "] ".toList ++ (st.sql ++ ' ' :: '[' ::
    ("len=".toList ++ st.parametersLength ++ "] ".toList ++ (st.parameters ++
      (timed st.responseTime ++ ',' :: st.rest)))))

/-- The statement can be told from what its log writes around it. -/
structure Valid (st : LoggedStatement) : Prop where
  century : 2000 ≤ st.time.date.year ∧ st.time.date.year ≤ 2099
  printable : st.time.Printable st.millis
  client : ∀ t ∈ [st.user, st.host, st.port, st.schema],
    ∀ c ∈ t, isBlank c = false ∧ c ∉ [',', '=', ']']
  flags : Pattern.Free [lengthMark] st.flags
  lengths : ∀ t ∈ [st.sqlLength, st.parametersLength], t ≠ [] ∧ t.all isDecimalDigit = true
  sql_ne_nil : st.sql ≠ []
  sql_trim : st.sql.trim = st.sql
  sql : Pattern.Free [lengthMark] st.sql
  parameters_ne_nil : st.parameters ≠ []
  parameters_trim : st.parameters.trim = st.parameters
  parameters : Pattern.Free [lengthMark] st.parameters ∧ Pattern.Free [metricsMark] st.parameters
  responseTime : Span.int64.holds (st.responseTime * 1000) = true
  trimmed : ∀ line ∈ st.text.lines, line.trim = line
  continuing : ∀ line ∈ st.text.lines.tail, boundary.opens line = false

/-- The start of the statement in a zone of a fixed offset, in microseconds. -/
def startTime (st : LoggedStatement) (east : Int) : Int :=
  (st.time.seconds - east) * 1000000 + st.millis * 1000

def record (st : LoggedStatement) (east : Int) : Record :=
  ⟨st.sql, st.startTime east, st.host ++ ':' :: st.port, st.responseTime * 1000, st.schema,
    some st.user, parameter? st.parameters⟩

variable {st : LoggedStatement}

section Header

theorem named_not_blank {name : String} (hname : name.toList.any isBlank = false) {value : Text}
    (hvalue : ∀ c ∈ value, isBlank c = false) : ∀ c ∈ named name value, isBlank c = false := by
  rw [named, List.forall_mem_append, List.forall_mem_cons]
  exact ⟨not_blank_of_any hname, by decide, hvalue⟩

theorem block_not_blank (h : st.Valid) : ∀ c ∈ st.block, isBlank c = false := by
  have hclient : ∀ t ∈ [st.user, st.host, st.port, st.schema], ∀ c ∈ t, isBlank c = false :=
    fun t ht c hc => (h.client t ht c hc).1
  simp only [List.forall_mem_cons, List.not_mem_nil, false_implies, implies_true, and_true]
    at hclient
  obtain ⟨huser, hhost, hport, hschema⟩ := hclient
  simp only [block, List.forall_mem_cons, List.forall_mem_append]
  exact ⟨by decide, named_not_blank (by decide) huser, by decide,
    named_not_blank (by decide) hhost, by decide, named_not_blank (by decide) hport, by decide,
    named_not_blank (by decide) hschema, by decide, nofun⟩

theorem words_not_blank (h : st.Valid) :
    ∀ w ∈ st.words, w ≠ [] ∧ ∀ c ∈ w, isBlank c = false := by
  simp only [words, List.forall_mem_cons, List.not_mem_nil, false_implies, implies_true, and_true]
  refine ⟨⟨by simp [Date.print], ?_⟩, ⟨by simp, ?_⟩, ⟨by simp, by decide⟩,
    by simp [block], block_not_blank h⟩
  · simp only [Date.print, List.forall_mem_cons, List.forall_mem_append]
    exact ⟨padded_not_blank _ _, by decide, padded_not_blank _ _, by decide, padded_not_blank _ _⟩
  · simp only [LocalTime.printClock, List.forall_mem_cons, List.forall_mem_append]
    exact ⟨⟨padded_not_blank _ _, by decide, padded_not_blank _ _, by decide,
      padded_not_blank _ _⟩, by decide, padded_not_blank _ _⟩

theorem header_eq (h : st.Valid) :
    Header.ofWords (Header.words st.text) =
      .ok ⟨st.time.date.print, st.time.printClock ++ '.' :: padded 3 st.millis, st.block⟩ := by
  rw [Header.words, text, before, List.append_assoc, List.cons_append,
    cut_blanks_words (by simp [words]) (words_not_blank h)]
  rfl

theorem cut_clientMark {before : Text} (h : ∀ c ∈ before, c ∉ [',', '=', ']']) {x : Char}
    (hx : x ∈ [',', '=', ']']) (t : Text) :
    Pattern.cut clientMarks (before ++ x :: t) = before :: Pattern.cut clientMarks t := by
  have hfirst : ∀ c ∈ before, ∀ p ∈ clientMarks, p.first c = false := by
    intro c hc p hp
    have hne := h c hc
    simp only [List.mem_cons, List.not_mem_nil, or_false, not_or] at hne
    simp only [clientMarks, List.mem_cons, List.not_mem_nil, or_false] at hp
    rcases hp with rfl | rfl | rfl
    · exact beq_false_of_ne hne.1
    · exact beq_false_of_ne hne.2.1
    · exact beq_false_of_ne hne.2.2
  have hmatch : Pattern.restOfAny? clientMarks (x :: t) = some t := by
    simp only [List.mem_cons, List.not_mem_nil, or_false] at hx
    rcases hx with rfl | rfl | rfl <;> rfl
  exact Pattern.cut_of_not_first hfirst hmatch

theorem cut_block (h : st.Valid) :
    Pattern.cut clientMarks st.block =
      ["[user".toList, st.user, "host".toList, st.host, "port".toList, st.port, "schema".toList,
        st.schema, []] := by
  have hclient : ∀ t ∈ [st.user, st.host, st.port, st.schema], ∀ c ∈ t, c ∉ [',', '=', ']'] :=
    fun t ht c hc => (h.client t ht c hc).2
  simp only [List.forall_mem_cons, List.not_mem_nil, false_implies, implies_true, and_true]
    at hclient
  obtain ⟨huser, hhost, hport, hschema⟩ := hclient
  have hfirst : '[' :: named "user" st.user = "[user".toList ++ '=' :: st.user := rfl
  have hend : Pattern.cut clientMarks [] = [[]] := by
    rw [Pattern.cut, Pattern.cutFrom]
    rfl
  rw [block, ← List.cons_append, hfirst]
  simp only [named, List.append_assoc, List.cons_append]
  rw [cut_clientMark (forall_mem_of_all (by decide)) (by decide),
    cut_clientMark huser (by decide), cut_clientMark (forall_mem_of_all (by decide)) (by decide),
    cut_clientMark hhost (by decide), cut_clientMark (forall_mem_of_all (by decide)) (by decide),
    cut_clientMark hport (by decide), cut_clientMark (forall_mem_of_all (by decide)) (by decide),
    cut_clientMark hschema (by decide), hend]

theorem client_eq (h : st.Valid) :
    Client.ofBlock st.block = .ok ⟨st.user, st.host ++ ':' :: st.port, st.schema⟩ := by
  rw [Client.ofBlock, cut_block h]

end Header

section Statement

theorem lengthMark_barrier {x : Char} (hx : x ∈ [' ', ',', '[']) :
    ∀ p ∈ [lengthMark], ∀ step ∈ p.steps, step.takes x = false := by
  simp only [List.mem_cons, List.not_mem_nil, or_false] at hx
  rcases hx with rfl | rfl | rfl <;> decide

theorem lengthMark_first {x : Char} (hx : x ≠ '[') : ∀ p ∈ [lengthMark], p.first x = false := by
  intro p hp
  rw [List.mem_singleton.1 hp]
  exact beq_false_of_ne hx

theorem restOfAny?_lengthMark {digits : Text}
    (h : digits ≠ [] ∧ digits.all isDecimalDigit = true) (t : Text) :
    Pattern.restOfAny? [lengthMark] ('[' :: ("len=".toList ++ digits ++ "] ".toList ++ t)) =
      some (' ' :: t) := by
  obtain ⟨hne, hdigits⟩ := h
  obtain ⟨c, digits, rfl⟩ := List.exists_cons_of_ne_nil hne
  rw [List.all_cons, Bool.and_eq_true] at hdigits
  have hnumber : Step.follow [.one isDecimalDigit, .run isDecimalDigit]
      (c :: digits ++ ']' :: ' ' :: t) = some (']' :: ' ' :: t) := by
    rw [List.cons_append, Step.follow, if_pos hdigits.1, Step.follow,
      List.dropWhile_append_of_pos (List.all_eq_true.1 hdigits.2),
      List.dropWhile_cons_of_neg (by decide), Step.follow]
  have hclose : Step.follow (Step.literal "]") (']' :: ' ' :: t) = some (' ' :: t) :=
    Step.follow_literal "]" (' ' :: t)
  have hrest : lengthMark.rest? ('[' :: ("len=".toList ++ (c :: digits ++ ']' :: ' ' :: t))) =
      some (' ' :: t) := by
    change Step.follow (Step.literal "len=" ++ [.one isDecimalDigit, .run isDecimalDigit] ++
      Step.literal "]") _ = _
    rw [Step.follow_append, Step.follow_append, Step.follow_literal, Option.bind_some, hnumber,
      Option.bind_some, hclose]
  have hbracket : "] ".toList ++ t = ']' :: ' ' :: t := rfl
  rw [List.append_assoc, List.append_assoc, hbracket, Pattern.restOfAny?, List.findSome?_cons,
    hrest]

/-- A length mark holds an equals sign behind its bracket, and a value holds none. -/
theorem free_named {name : String} (hname : '[' ∉ name.toList) {value : Text}
    (hvalue : '=' ∉ value) : Pattern.Free [lengthMark] (named name value) := by
  have hfree : Pattern.Free [lengthMark] value := by
    refine Pattern.free_of_forall fun p hp => ⟨(· == '='), ?_, ?_⟩
    · rw [List.mem_singleton.1 hp]
      exact List.mem_append_left _ (List.mem_append_left _
        (List.mem_map.2 ⟨'=', by decide, rfl⟩))
    · exact fun c hc => beq_false_of_ne fun heq => hvalue (heq ▸ hc)
  rw [named, List.append_cons]
  refine hfree.append_of_not_first fun c hc => lengthMark_first ?_
  rintro rfl
  rcases List.mem_append.1 hc with hc | hc
  · exact hname hc
  · exact absurd hc (by decide)

theorem free_block (h : st.Valid) : Pattern.Free [lengthMark] st.block := by
  have hclient : ∀ t ∈ [st.user, st.host, st.port, st.schema], '=' ∉ t :=
    fun t ht hc => (h.client t ht _ hc).2 (by decide)
  simp only [List.forall_mem_cons, List.not_mem_nil, false_implies, implies_true, and_true]
    at hclient
  obtain ⟨huser, hhost, hport, hschema⟩ := hclient
  have hcomma := lengthMark_barrier (x := ',') (by decide)
  have hfirst := lengthMark_first (x := ',') (by decide)
  have hend : named "schema" st.schema ++ [']'] = named "schema" (st.schema ++ [']']) := by
    simp only [named, List.append_assoc, List.cons_append]
  have hopen : Pattern.restOfAny? [lengthMark] st.block = none := rfl
  rw [block] at hopen ⊢
  refine Pattern.free_cons.2 ⟨hopen, ?_⟩
  rw [hend]
  exact (free_named (by decide) huser).append_cons hcomma hfirst
    ((free_named (by decide) hhost).append_cons hcomma hfirst
      ((free_named (by decide) hport).append_cons hcomma hfirst
        (free_named (by decide) (by simpa using hschema))))

theorem free_before (h : st.Valid) : Pattern.Free [lengthMark] st.before := by
  have hspace := lengthMark_barrier (x := ' ') (by decide)
  have hfirst := lengthMark_first (x := ' ') (by decide)
  have hnil : Pattern.Free [lengthMark] [] := by decide
  have hstamp : st.before = (st.time.date.print ++ ' ' :: (st.time.printClock ++ '.' ::
      (padded 3 st.millis ++ [' ', '-', ' ']))) ++
        (st.block ++ ' ' :: (st.flags ++ ' ' :: [])) := by
    simp only [before, words, List.intercalate_cons_cons, List.intercalate_singleton,
      List.append_assoc, List.cons_append, List.nil_append]
  have hpadded (width n : Nat) : '[' ∉ padded width n := Stamp.not_mem_padded (by decide) width n
  rw [hstamp]
  refine ((free_block h).append_cons hspace hfirst
    (h.flags.append_cons hspace hfirst hnil)).append_of_not_first fun c hc => lengthMark_first ?_
  rintro rfl
  simp [Date.print, LocalTime.printClock, hpadded] at hc

theorem free_timed (n : Int) : Pattern.Free [lengthMark] (timed n) := by
  have hvalue : '=' ∉ Integer.print n := by
    intro hmem
    rcases Integer.eq_or_isDigit_of_mem_print hmem with hc | hdigit
    · exact absurd hc (by decide)
    · exact absurd rfl (ne_of_isDigit hdigit (by decide))
  have hbracket : Pattern.restOfAny? [lengthMark] ('[' :: named "rt" (Integer.print n)) = none := rfl
  have hopen : ∀ c ∈ [' ', '#', ' '], ∀ p ∈ [lengthMark], p.first c = false :=
    forall_mem_of_all (by decide)
  exact (Pattern.free_cons.2 ⟨hbracket, free_named (by decide) hvalue⟩).append_of_not_first hopen

/-- The piece behind the second length mark begins with the parameters and the response time. -/
theorem exists_cut_text (h : st.Valid) : ∃ more pieces,
    Pattern.cut [lengthMark] st.text =
      st.before :: (' ' :: (st.sql ++ [' '])) ::
        (' ' :: (st.parameters ++ (timed st.responseTime ++ ',' :: more))) :: pieces := by
  have hspace := lengthMark_barrier (x := ' ') (by decide)
  have hfirst := lengthMark_first (x := ' ') (by decide)
  have hopen := lengthMark_barrier (x := '[') (by decide)
  have hnil : Pattern.Free [lengthMark] [] := by decide
  have hsql : Pattern.Free [lengthMark] (' ' :: (st.sql ++ [' '])) :=
    hnil.append_cons hspace hfirst (h.sql.append_cons hspace hfirst hnil)
  have htail : Pattern.Free [lengthMark] (' ' :: (st.parameters ++ timed st.responseTime)) :=
    hnil.append_cons hspace hfirst
      (h.parameters.1.append_cons hspace hfirst (Pattern.free_cons.1 (free_timed _)).2)
  obtain ⟨more, pieces, hcut⟩ := Pattern.exists_cut_of_free htail
    (lengthMark_barrier (x := ',') (by decide)) (lengthMark_first (x := ',') (by decide)) st.rest
  have hsecond (t : Text) : ' ' :: (st.sql ++ ' ' :: '[' :: t) =
      ' ' :: (st.sql ++ [' ']) ++ '[' :: t := by
    rw [List.cons_append, List.append_assoc, List.singleton_append]
  refine ⟨more, pieces, ?_⟩
  rw [text, Pattern.cut_of_free (free_before h) hopen
      (restOfAny?_lengthMark (h.lengths _ List.mem_cons_self) _), hsecond,
    Pattern.cut_of_free hsql hopen (restOfAny?_lengthMark (h.lengths _ (by simp)) _)]
  rw [List.cons_append, List.cons_append, List.append_assoc, List.append_assoc] at hcut
  rw [hcut]

theorem statementAndTail_eq (h : st.Valid) : ∃ more,
    statementAndTail st.text =
      .ok (st.sql, st.parameters ++ (timed st.responseTime ++ ',' :: more)) := by
  obtain ⟨more, pieces, hcut⟩ := exists_cut_text h
  refine ⟨Text.trimEnd more, ?_⟩
  have hblank : isBlank ' ' = true := by decide
  have hstatement : Text.trim (' ' :: (st.sql ++ [' '])) = st.sql := by
    rw [Text.trim, Text.trimStart, List.dropWhile_cons_of_pos hblank, ← Text.trimStart,
      Text.trimStart_append h.sql_ne_nil h.sql_trim, Text.trimEnd_append_blank hblank,
      Text.trimEnd_eq_self h.sql_trim]
  have htail : Text.trim (' ' :: (st.parameters ++ (timed st.responseTime ++ ',' :: more))) =
      st.parameters ++ (timed st.responseTime ++ ',' :: Text.trimEnd more) := by
    rw [Text.trim, Text.trimStart, List.dropWhile_cons_of_pos hblank, ← Text.trimStart,
      Text.trimStart_append h.parameters_ne_nil h.parameters_trim, ← List.append_assoc,
      Text.trimEnd_append_cons (by decide), List.append_assoc]
  rw [statementAndTail, hcut]
  dsimp only
  rw [hstatement, htail]

theorem parametersAndMetrics_eq (h : st.Valid) (more : Text) : ∃ more',
    parametersAndMetrics (st.parameters ++ (timed st.responseTime ++ ',' :: more)) =
      .ok (st.parameters, Integer.print st.responseTime ++ ',' :: more') := by
  have hopen : timed st.responseTime ++ ',' :: more =
      (' ' :: "# [rt=".toList) ++ (Integer.print st.responseTime ++ [','] ++ more) := by
    rw [List.append_assoc (Integer.print _), List.singleton_append]
    rfl
  have hborder : ∀ k ∈ List.range "# [rt=".length,
      ¬"# [rt=".toList.drop k <+: ' ' :: "# [rt=".toList := by decide
  have hfirst : ∀ c ∈ Integer.print st.responseTime ++ [','], ∀ p ∈ [metricsMark],
      p.first c = false := by
    intro c hc p hp
    rw [List.mem_singleton.1 hp]
    refine beq_false_of_ne ?_
    rintro rfl
    rcases List.mem_append.1 hc with hc | hc
    · exact absurd (print_not_blank _ _ hc) (by decide)
    · exact absurd hc (by decide)
  obtain ⟨first, pieces, -, hmetrics⟩ :=
    Pattern.exists_cut_append (Pattern.restOfAny?_of_suffix hfirst more)
  have hcut : Pattern.cut [metricsMark] _ = _ :=
    Pattern.cut_literal hborder h.parameters.2 (Integer.print st.responseTime ++ [','] ++ more)
  refine ⟨first, ?_⟩
  rw [hopen, parametersAndMetrics, hcut]
  change Pattern.cut [.ofChar ' ' (Step.literal "# [rt=")] _ = _ at hmetrics
  rw [hmetrics, List.append_assoc, List.singleton_append]

theorem execTime_eq (h : st.Valid) (more : Text) :
    execTime (Integer.print st.responseTime ++ ',' :: more) = .ok (st.responseTime * 1000) := by
  have hmatch : Pattern.restOfAny? Pattern.keyValue (',' :: more) = some more := rfl
  rw [execTime, Pattern.cut_of_not_first (print_not_first _) hmatch]
  exact Extract.millis_print h.responseTime _

end Statement

section Opening

def opening (st : LoggedStatement) : Text :=
  Stamp.printPoint st.time st.millis ++ [' ', '-', ' ', '[']

theorem opens_opening (h : st.Valid) (t : Text) : boundary.opens (st.opening ++ t) = true := by
  have hcentury : 2000 ≤ st.time.date.year.toNat ∧ st.time.date.year.toNat ≤ 2099 := by
    have := h.century
    omega
  have hzero (more : Text) : Step.follow (Step.literal "0") ('0' :: more) = some more :=
    Step.follow_literal "0" more
  have hdash (more : Text) : Step.follow (Step.literal "-") ('-' :: more) = some more :=
    Step.follow_literal "-" more
  have hspace (more : Text) : Step.follow (Step.literal " ") (' ' :: more) = some more :=
    Step.follow_literal " " more
  have hcolon (more : Text) : Step.follow (Step.literal ":") (':' :: more) = some more :=
    Step.follow_literal ":" more
  have hpoint (more : Text) : Step.follow [.one (· != '\n')] ('.' :: more) = some more := rfl
  have hblock : Step.follow (Step.literal " - [") (' ' :: '-' :: ' ' :: '[' :: t) = some t :=
    Step.follow_literal " - [" t
  have hyear : padded 4 st.time.date.year.toNat = '2' :: '0' :: padded 2 st.time.date.year.toNat :=
    padded_four hcentury
  have hrest : boundary.rest? (st.opening ++ t) = some t := by
    rw [opening, Stamp.printPoint, Date.print, LocalTime.printClock, hyear]
    simp only [List.cons_append, List.append_assoc, List.nil_append]
    rw [boundary, Pattern.ofChar, Pattern.rest?, if_pos (by simp)]
    simp only [List.append_assoc, Step.follow_append, hzero, hdash, hspace, hcolon, hpoint, hblock,
      Step.follow_padded, Option.bind_some]
  rw [Pattern.opens, hrest]
  rfl

theorem exists_text_eq (st : LoggedStatement) : ∃ t, st.text = st.opening ++ t := by
  have hbefore : ∃ t, st.before = st.opening ++ t := by
    refine ⟨st.block.tail ++ ' ' :: (st.flags ++ [' ']), ?_⟩
    simp only [before, words, block, opening, Stamp.printPoint, List.intercalate_cons_cons,
      List.intercalate_singleton, List.append_assoc, List.cons_append, List.nil_append,
      List.tail_cons]
  obtain ⟨t, ht⟩ := hbefore
  exact ⟨_, by rw [text, ht, List.append_assoc]⟩

theorem lineFeed_not_mem_opening (st : LoggedStatement) : '\n' ∉ st.opening := by
  have hpadded (width n : Nat) : '\n' ∉ padded width n := Stamp.not_mem_padded (by decide) width n
  simp [opening, Stamp.printPoint, Date.print, LocalTime.printClock, hpadded]

/-- Within the limits, the entry of a statement is gathered as one. -/
theorem whole (h : st.Valid) {rule : SegmentRule} (hlines : st.text.lines.length ≤ rule.maxLines)
    (hbytes : st.text.byteSize ≤ rule.maxBytes) : Whole rule boundary.opens st.text := by
  obtain ⟨t, htext⟩ := exists_text_eq st
  exact .of_opening (lineFeed_not_mem_opening st) htext (opens_opening h) h.trimmed h.continuing
    hlines hbytes

def outcome (st : LoggedStatement) (east : Int) : Outcome :=
  match firstRejection rules st.sql (parameter? st.parameters) with
  | some reason => .ignore reason
  | none => .emit (st.record east)

theorem convert_text (h : st.Valid) {east : Int} (heast : -86400 < east ∧ east < 86400) :
    convert (.fixed east) st.text = .ok (st.outcome east) := by
  have hstamp : Extract.stamp .point (.fixed east) (Stamp.printPoint st.time st.millis) =
      .ok (st.startTime east) := by
    rw [Extract.stamp, Stamp.read_printPoint h.printable heast]
    rfl
  obtain ⟨tail, htail⟩ := statementAndTail_eq h
  obtain ⟨more, hmetrics⟩ := parametersAndMetrics_eq h tail
  rw [convert, header_eq h]
  change (Extract.stamp .point (.fixed east) (Stamp.printPoint st.time st.millis) >>= _) = _
  rw [hstamp]
  change (Client.ofBlock st.block >>= _) = _
  rw [client_eq h]
  change (statementAndTail st.text >>= _) = _
  rw [htail]
  change (parametersAndMetrics _ >>= _) = _
  rw [hmetrics]
  change (execTime _ >>= _) = _
  rw [execTime_eq h]
  change (match firstRejection rules st.sql (parameter? st.parameters) with
    | some reason => Except.ok (Outcome.ignore reason)
    | none => Except.ok (Outcome.emit (st.record east))) = _
  rw [outcome]
  split <;> rfl

end Opening

end LoggedStatement

end ReplayLog.NodeLog
