import ReplayLog.Proofs.PreambleCount
import ReplayLog.Proofs.WholeEntries

/-! # Trimmed lines

A log of lines is converted by its trimmed lines: sources whose lines differ in nothing but the
blanks around them are converted alike, entries, faults, counts and remarks included. Blanks are a
carriage return before the line feed and an indentation as well, and whether the last line ends in a
line feed makes no difference. -/
namespace ReplayLog

namespace Text

/-- What is true of texts without a line feed, and of a line before what it is true of, is true of
all texts. -/
@[elab_as_elim]
theorem lineInduction {motive : Text → Prop} (last : ∀ piece, '\n' ∉ piece → motive piece)
    (line : ∀ piece rest, '\n' ∉ piece → motive rest → motive (piece ++ '\n' :: rest)) (t : Text) :
    motive t := by
  induction hn : t.length using Nat.strong_induction_on generalizing t with
  | _ n ih =>
    by_cases hmem : '\n' ∈ t
    · obtain ⟨piece, rest, rfl, hfree⟩ := List.eq_append_cons_of_mem hmem
      refine line piece rest hfree (ih rest.length ?_ rest rfl)
      rw [← hn, List.length_append, List.length_cons]
      omega
    · exact last t hmem

/-- The lines of a source. What is behind the last line feed is a line if it is not empty. -/
def sourceLines (t : Text) : List Text :=
  t.lines.dropLast ++ if t.lines.getLastD [] = [] then [] else [t.lines.getLastD []]

theorem sourceLines_of_not_mem {t : Text} (h : '\n' ∉ t) :
    t.sourceLines = if t = [] then [] else [t] := by
  have hlines : t.lines = [t] := List.splitOn_eq_singleton h
  rw [sourceLines, hlines]
  rfl

theorem sourceLines_append_lineFeed {piece : Text} (h : '\n' ∉ piece) (rest : Text) :
    sourceLines (piece ++ '\n' :: rest) = piece :: rest.sourceLines := by
  have hlines : lines (piece ++ '\n' :: rest) = piece :: rest.lines :=
    List.splitOn_append_cons_self_of_not_mem h rest
  obtain ⟨first, more, hrest⟩ := List.exists_cons_of_ne_nil (lines_ne_nil rest)
  rw [sourceLines, sourceLines, hlines, hrest]
  rfl

def Padded (line piece : Text) : Prop :=
  ∃ before after, piece = before ++ line ++ after ∧
    ∀ c ∈ before ++ after, isBlank c = true ∧ c ≠ '\n'

theorem Padded.trim {line piece : Text} (h : Padded line piece) : piece.trim = line.trim := by
  obtain ⟨before, after, rfl, hblank⟩ := h
  exact trim_of_blanks (fun c hc => (hblank c (List.mem_append_left _ hc)).1)
    (fun c hc => (hblank c (List.mem_append_right _ hc)).1) line

theorem Padded.not_mem {line piece : Text} (h : Padded line piece) (hline : '\n' ∉ line) :
    '\n' ∉ piece := by
  obtain ⟨before, after, rfl, hblank⟩ := h
  have hfree : '\n' ∉ before ++ after := fun hmem => (hblank _ hmem).2 rfl
  rw [List.mem_append, not_or] at hfree
  rw [List.mem_append, List.mem_append, not_or, not_or]
  exact ⟨⟨hfree.1, hline⟩, hfree.2⟩

/-- A text that holds the lines, with any blanks around each of them, and with or without a line
feed behind the last one. -/
inductive Spaced : List Text → Text → Prop
  | nil : Spaced [] []
  | last {line piece : Text} (hline : '\n' ∉ line) (h : Padded line piece) (hne : piece ≠ []) :
      Spaced [line] piece
  | cons {line piece : Text} {lines : List Text} {rest : Text} (hline : '\n' ∉ line)
      (h : Padded line piece) (hrest : Spaced lines rest) :
      Spaced (line :: lines) (piece ++ '\n' :: rest)

/-- The lines of a text that holds lines are these, apart from the blanks around them. -/
theorem Spaced.trim_sourceLines {lines : List Text} {t : Text} (h : Spaced lines t) :
    t.sourceLines.map Text.trim = lines.map Text.trim := by
  induction h with
  | nil => rfl
  | last hline h hne =>
    rw [sourceLines_of_not_mem (h.not_mem hline), if_neg hne, List.map_singleton, h.trim]
    rfl
  | cons hline h hrest ih =>
    rw [sourceLines_append_lineFeed (h.not_mem hline), List.map_cons, h.trim, ih, List.map_cons]

end Text

/-- Taking off a carriage return leaves a text that is trimmed to the same. -/
theorem exists_withoutReturn_toUtf8 (t : Text) :
    ∃ t' : Text, withoutReturn t.toUtf8 = t'.toUtf8 ∧ t'.trim = t.trim := by
  rcases List.eq_nil_or_concat t with rfl | ⟨front, c, rfl⟩
  · exact ⟨[], rfl, rfl⟩
  · rw [List.concat_eq_append]
    by_cases hc : c = '\r'
    · subst hc
      refine ⟨front, ?_, ?_⟩
      · rw [withoutReturn, Text.toUtf8_append]
        exact (if_pos List.getLast?_concat).trans List.dropLast_concat
      · exact (Text.Padded.trim ⟨[], ['\r'], rfl, forall_mem_of_all rfl⟩).symm
    · exact ⟨front ++ [c], withoutReturn_concat hc front, rfl⟩

/-- The lines read of a text are its lines, up to the blanks around them. -/
theorem exists_physicalLines_toUtf8 (e : Encoding) (t : Text) :
    ∃ lines : List Text, physicalLines e t.toUtf8 none = lines.map .ok ∧
      lines.map Text.trim = t.sourceLines.map Text.trim := by
  have hread (t : Text) : (e.decode t.toUtf8).mapError ReadFault.notUtf8 = .ok t := by
    rw [Encoding.decode_toUtf8]
    rfl
  have hfree {piece : Text} (h : '\n' ∉ piece) : lineFeed ∉ piece.toUtf8 := fun hmem =>
    h (Text.mem_of_mem_toUtf8 (n := 0x0A) (by omega) hmem)
  induction t using Text.lineInduction with
  | last piece h =>
    rw [physicalLines_of_not_mem e (hfree h), Text.sourceLines_of_not_mem h, hread]
    cases piece with
    | nil => exact ⟨[], rfl, rfl⟩
    | cons c piece =>
      obtain ⟨b, bs, hencode, -⟩ := Utf8.sequence_utf8EncodeChar c []
      refine ⟨[c :: piece], if_neg ?_, rfl⟩
      rw [Text.toUtf8_cons, hencode]
      exact List.cons_ne_nil _ _
  | line piece rest h ih =>
    obtain ⟨lines, hlines, htrim⟩ := ih
    obtain ⟨piece', hpiece, htrim'⟩ := exists_withoutReturn_toUtf8 piece
    have hbytes : Text.toUtf8 (piece ++ '\n' :: rest) =
        piece.toUtf8 ++ lineFeed :: rest.toUtf8 := by
      rw [Text.toUtf8_append]
      rfl
    refine ⟨piece' :: lines, ?_, ?_⟩
    · rw [hbytes, physicalLines_append_lineFeed e (hfree h), hpiece, hread, hlines, List.map_cons]
    · rw [Text.sourceLines_append_lineFeed h, List.map_cons, List.map_cons, htrim, htrim']

def BufferedSource.Shows (b : BufferedSource) (t : Text) : Prop :=
  b.shownBytes = t.toUtf8 ∧ b.shownFailure = none

namespace Settings

/-- A source is read as the lines of its text, up to the blanks around them. -/
theorem readLines_of_shows (s : Settings) {b : BufferedSource} {t : Text} (h : b.Shows t) :
    (s.readLines b).1.map Text.trim = t.sourceLines.map Text.trim ∧ (s.readLines b).2 = none := by
  obtain ⟨lines, hlines, htrim⟩ := exists_physicalLines_toUtf8 s.encoding t
  rw [readLines, h.1, h.2, hlines, Cut.readable_map_ok]
  exact ⟨htrim, rfl⟩

theorem linesRead_textFeed {s : Settings} {b : BufferedSource}
    (h : (s.textFeed b).ending.fault? = none) :
    (s.textFeed b).linesRead = ((s.readLines b).1.map Text.trim).length := by
  cases hp : s.dialect.boundary? with
  | some p =>
    simp only [textFeed, hp] at h ⊢
    exact (Cut.counts_of_feed h).1
  | none =>
    simp only [textFeed, hp]
    rfl

variable {s : Settings} {t t' : Text} {b b' : BufferedSource}

theorem run_eq_of_trimmed (hs : s.dialect ≠ .serviceExport) (hb : b.Shows t) (hb' : b'.Shows t')
    (h : t.sourceLines.map Text.trim = t'.sourceLines.map Text.trim) (w : Writer) :
    s.run b w = s.run b' w := by
  obtain ⟨c, hc⟩ := s.exists_converter hs
  obtain ⟨hlines, hend⟩ := s.readLines_of_shows hb
  obtain ⟨hlines', hend'⟩ := s.readLines_of_shows hb'
  have hfeed : s.textFeed b = s.textFeed b' := by
    rw [textFeed, textFeed, hlines, hlines', h, hend, hend']
  rw [run, run, (hc b).1, (hc b').1, hfeed]

theorem linesRead_of_run (hs : s.dialect ≠ .serviceExport) (hb : b.Shows t) {w : Writer}
    (h : (s.run b w).1 = .ok ()) : (s.run b w).2.tally.linesRead = t.sourceLines.length := by
  obtain ⟨c, hc⟩ := s.exists_converter hs
  have hok := Progress.ok_of_close h
  rw [(hc b).1] at hok
  have hfeed := linesRead_textFeed (Progress.fault?_of_takeFeed hok)
  rw [tally_run, (hc b).1, (Progress.lines_of_takeFeed hok).1, hfeed,
    (s.readLines_of_shows hb).1, List.length_map]

/-- A log of lines is converted by its trimmed lines. Blanks around them, carriage returns before
the line feeds among these, and a line feed behind the last line change nothing of the result, of
what is written, of the counts and of the remarks. -/
theorem run_trimmed_lines (s : Settings) (hs : s.dialect ≠ .serviceExport) (w : Writer) :
    (∀ {t t' : Text} {b b' : BufferedSource}, b.Shows t → b'.Shows t' →
      t.sourceLines.map Text.trim = t'.sourceLines.map Text.trim → s.run b w = s.run b' w) ∧
    (∀ {lines : List Text} {t t' : Text} {b b' : BufferedSource}, Text.Spaced lines t →
      Text.Spaced lines t' → b.Shows t → b'.Shows t' → s.run b w = s.run b' w) ∧
    ∀ {t : Text} {b : BufferedSource}, b.Shows t → (s.run b w).1 = .ok () →
      (s.run b w).2.tally.linesRead = t.sourceLines.length := by
  refine ⟨?_, ?_, ?_⟩
  · intro t t' b b' hb hb' h
    exact run_eq_of_trimmed hs hb hb' h w
  · intro lines t t' b b' ht ht' hb hb'
    have hsame := ht.trim_sourceLines.trans ht'.trim_sourceLines.symm
    exact run_eq_of_trimmed hs hb hb' hsame w
  · intro t b hb h
    exact linesRead_of_run hs hb h

/-- An entry of two lines is converted from lines that end in line feeds, and as well from an
indented one that ends in a carriage return and a line feed and one that ends with its source. -/
theorem run_trimmed_lines_logPart :
    let s : Settings := { dialect := .accessLog, trailing := .emit, zone := .fixed 0 }
    let w : Writer := ⟨{}, 1, 0⟩
    let first := "[2023-02-10 00:03:15,398] I [t] L - C T=4 [2023-02-10 00:03:15 398] 7 a"
    let plain := first ++ "\nb\\;\n"
    let spaced := "\t" ++ first ++ " \r\n  b\\;"
    s.dialect ≠ .serviceExport ∧
      Text.Spaced [first.toList, "b\\;".toList] plain.toList ∧
      Text.Spaced [first.toList, "b\\;".toList] spaced.toList ∧
      (logPart plain).Shows plain.toList ∧ (logPart spaced).Shows spaced.toList ∧
      (Text.sourceLines plain.toList).map Text.trim =
        (Text.sourceLines spaced.toList).map Text.trim ∧
      s.run (logPart plain) w = s.run (logPart spaced) w ∧
      (s.run (logPart spaced) w).1 = .ok () ∧
      (s.run (logPart spaced) w).2.tally.linesRead = 2 ∧
      (s.run (logPart spaced) w).2.tally.written = 1 := by
  intro s w first plain spaced
  have hs : s.dialect ≠ .serviceExport := by decide
  have hfirst : '\n' ∉ first.toList := by decide +kernel
  have hsecond : '\n' ∉ "b\\;".toList := by decide +kernel
  have hplain : Text.Spaced [first.toList, "b\\;".toList] plain.toList := by
    have hsplit : plain.toList = first.toList ++ '\n' :: ("b\\;".toList ++ ['\n']) := by
      decide +kernel
    have hpadded (line : Text) : Text.Padded line line :=
      ⟨[], [], (List.append_nil line).symm, fun c hc => absurd hc List.not_mem_nil⟩
    rw [hsplit]
    exact .cons hfirst (hpadded _) (.cons hsecond (hpadded _) .nil)
  have hspaced : Text.Spaced [first.toList, "b\\;".toList] spaced.toList := by
    have hsplit : spaced.toList =
        ("\t".toList ++ first.toList ++ " \r".toList) ++ '\n' :: "  b\\;".toList := by
      decide +kernel
    rw [hsplit]
    have hindented : Text.Padded first.toList ("\t".toList ++ first.toList ++ " \r".toList) :=
      ⟨_, _, rfl, forall_mem_of_all (by decide +kernel)⟩
    have hended : Text.Padded "b\\;".toList "  b\\;".toList :=
      ⟨"  ".toList, [], by decide +kernel, forall_mem_of_all (by decide +kernel)⟩
    exact .cons hfirst hindented (.last hsecond hended (by decide +kernel))
  have hshows := shown_logPart plain
  have hshows' := shown_logPart spaced
  have hlines : (Text.sourceLines plain.toList).map Text.trim =
      (Text.sourceLines spaced.toList).map Text.trim := by
    decide +kernel
  obtain ⟨htrimmed, hblanks, hcount⟩ := s.run_trimmed_lines hs w
  have hrun : s.run (logPart plain) w = s.run (logPart spaced) w :=
    hblanks hplain hspaced hshows hshows'
  have hok : (s.run (logPart spaced) w).1 = .ok () := by
    rw [← htrimmed hshows hshows' hlines]
    decide +kernel
  refine ⟨hs, hplain, hspaced, hshows, hshows', hlines, hrun, hok, ?_, ?_⟩
  · rw [hcount hshows' hok]
    decide +kernel
  · rw [← hrun]
    decide +kernel

end Settings
end ReplayLog
