import ReplayLog.Dialect.AccessLog
import ReplayLog.Dialect.NodeLog
import ReplayLog.Proofs.PrintedParts
import ReplayLog.Proofs.StampParts

/-! # Stamps of entries that a boundary opens

A boundary takes a stamp of decimal digits of any script, and in the log of a compute node any mark
before the fraction. The reader of stamps takes ASCII digits and one mark alone. Where the line has
these, its stamp has the form that is read; where it has not, its entry is faulty. -/
namespace ReplayLog

namespace Step

variable {steps more : List Step} {t rest : Text}

theorem follow_append_eq_some_iff :
    follow (steps ++ more) t = some rest ↔
      ∃ left, follow steps t = some left ∧ follow more left = some rest := by
  rw [follow_append, Option.bind_eq_some_iff]

/-- The digits that are taken stand at the start of the text. -/
theorem exists_of_follow_digits {width : Nat} (h : follow (digits width) t = some rest) :
    ∃ part, IsRun isDecimalDigit width part ∧ t = part ++ rest := by
  induction width generalizing t with
  | zero => exact ⟨[], ⟨rfl, nofun⟩, Option.some.inj h⟩
  | succ width ih =>
    rw [digits, List.replicate_succ, ← digits] at h
    cases t with
    | nil => cases h
    | cons c t =>
      rw [follow] at h
      split at h
      · next hc =>
        obtain ⟨part, hpart, rfl⟩ := ih h
        refine ⟨c :: part, ⟨by rw [List.length_cons, hpart.length_eq], ?_⟩, rfl⟩
        exact List.forall_mem_cons.2 ⟨hc, hpart.forall_mem⟩
      · cases h

/-- Two digits and a mark behind them. -/
theorem exists_of_follow_mark {l : String} {x : Char} (hl : l.toList = [x])
    (h : follow (digits 2 ++ (literal l ++ steps)) t = some rest) :
    ∃ part left, IsRun isDecimalDigit 2 part ∧ t = part ++ x :: left ∧
      follow steps left = some rest := by
  obtain ⟨behind, hdigits, hbehind⟩ := follow_append_eq_some_iff.1 h
  obtain ⟨part, hpart, rfl⟩ := exists_of_follow_digits hdigits
  obtain ⟨left, hmark, hleft⟩ := follow_append_eq_some_iff.1 hbehind
  rw [follow_literal_eq_some_iff, hl] at hmark
  exact ⟨part, left, hpart, congrArg (part ++ ·) hmark, hleft⟩

/-- The steps of a date of this century behind its first two digits, up to the seconds. -/
theorem exists_of_follow_seconds
    (h : follow (digits 2 ++ (literal "-" ++ (digits 2 ++ (literal "-" ++ (digits 2 ++
      (literal " " ++ (digits 2 ++ (literal ":" ++ (digits 2 ++ (literal ":" ++ (digits 2 ++
        steps))))))))))) t = some rest) :
    ∃ s : StampParts, ∃ left, (∀ fraction : Text, fraction ≠ [] →
        (∀ c ∈ fraction, isDecimalDigit c = true) →
          StampParts.Made isDecimalDigit { s with fraction }) ∧
      '2' :: '0' :: t = s.date ++ ' ' :: (s.clock ++ left) ∧ follow steps left = some rest := by
  obtain ⟨year, _, hyear, rfl, hmonths⟩ := exists_of_follow_mark (x := '-') rfl h
  obtain ⟨month, _, hmonth, rfl, hdays⟩ := exists_of_follow_mark (x := '-') rfl hmonths
  obtain ⟨day, _, hday, rfl, hhours⟩ := exists_of_follow_mark (x := ' ') rfl hdays
  obtain ⟨hour, _, hhour, rfl, hminutes⟩ := exists_of_follow_mark (x := ':') rfl hhours
  obtain ⟨minute, _, hminute, rfl, hseconds⟩ := exists_of_follow_mark (x := ':') rfl hminutes
  obtain ⟨left, hdigits, hleft⟩ := follow_append_eq_some_iff.1 hseconds
  obtain ⟨second, hsecond, rfl⟩ := exists_of_follow_digits hdigits
  have hcentury : IsRun isDecimalDigit 4 ('2' :: '0' :: year) := by
    refine ⟨by rw [List.length_cons, List.length_cons, hyear.length_eq], ?_⟩
    simpa using ⟨by decide, by decide, hyear.forall_mem⟩
  refine ⟨⟨'2' :: '0' :: year, month, day, hour, minute, second, []⟩, left, ?_, ?_, hleft⟩
  · exact fun fraction hne hfraction =>
      ⟨hcentury, hmonth, hday, hhour, hminute, hsecond, hfraction, hne⟩
  · simp only [StampParts.date, StampParts.clock, List.append_assoc, List.cons_append]

end Step

theorem Pattern.opens_append {p : Pattern} {t : Text} (hsteps : ∀ q, Step.run q ∉ p.steps)
    (h : p.opens t = true) (more : Text) : p.opens (t ++ more) = true := by
  obtain ⟨rest, hrest⟩ := Option.isSome_iff_exists.1 h
  cases t with
  | nil => cases hrest
  | cons c t =>
    rw [rest?] at hrest
    rw [opens, List.cons_append, rest?]
    split at hrest
    · next hc =>
      rw [if_pos hc, Step.follow_append_text hsteps hrest]
      rfl
    · cases hrest

/-- Two words at the start of an entry, with a space between them and a blank behind them. -/
theorem Pattern.exists_cut_words {w w' : Text} (hw : ∀ c ∈ w, isBlank c = false) (hne : w' ≠ [])
    (hw' : ∀ c ∈ w', isBlank c = false) {x : Char} (hx : isBlank x = true) (t : Text) :
    ∃ more, cut [.blanks] (w ++ ' ' :: (w' ++ x :: t)) = w :: w' :: more := by
  have hmatch {b : Char} (hb : isBlank b = true) (t : Text) :
      restOfAny? [.blanks] (b :: t) = some t.trimStart := by
    simp [restOfAny?, rest?, blanks, hb, Step.follow, Text.trimStart]
  have hfirst {v : Text} (hv : ∀ c ∈ v, isBlank c = false) :
      ∀ c ∈ v, ∀ p ∈ [Pattern.blanks], p.first c = false := by
    intro c hc p hp
    rw [List.mem_singleton.1 hp]
    exact hv c hc
  have hstart : Text.trimStart (w' ++ x :: t) = w' ++ x :: t := by
    obtain ⟨c, cs, rfl⟩ := List.exists_cons_of_ne_nil hne
    rw [Text.trimStart, List.cons_append, List.dropWhile_cons_of_neg (by simp [hw' c (by simp)])]
  refine ⟨cut [.blanks] t.trimStart, ?_⟩
  rw [cut_of_not_first (hfirst hw) (hmatch (by decide) _), hstart,
    cut_of_not_first (hfirst hw') (hmatch hx t)]

namespace StampParts

variable {s : StampParts}

theorem Made.date_not_blank (hs : s.Made isDecimalDigit) : ∀ c ∈ s.date, isBlank c = false := by
  have hdash : isBlank '-' = false := by decide
  simp only [date, List.forall_mem_append, List.forall_mem_cons]
  exact ⟨hs.year.not_blank, hdash, hs.month.not_blank, hdash, hs.day.not_blank⟩

theorem Made.clock_not_blank (hs : s.Made isDecimalDigit) : ∀ c ∈ s.clock, isBlank c = false := by
  have hcolon : isBlank ':' = false := by decide
  simp only [clock, List.forall_mem_append, List.forall_mem_cons]
  exact ⟨hs.hour.not_blank, hcolon, hs.minute.not_blank, hcolon, hs.second.not_blank⟩

theorem Made.fraction_not_blank (hs : s.Made isDecimalDigit) :
    ∀ c ∈ s.fraction, isBlank c = false :=
  fun c hc => isBlank_of_isDecimalDigit (hs.fraction c hc)

end StampParts

namespace AccessLog

variable {entry : Text} {header : Header}

/-- An entry that the boundary opens begins with a stamp in brackets. -/
theorem exists_of_opens (h : boundary.opens entry = true) :
    ∃ s : StampParts, ∃ rest, s.Made isDecimalDigit ∧ s.fraction.length = 3 ∧
      entry = '[' :: (s.text ',' ++ ']' :: ' ' :: rest) := by
  obtain ⟨rest, hrest⟩ := Option.isSome_iff_exists.1 h
  cases entry with
  | nil => cases hrest
  | cons c t =>
    simp only [Pattern.rest?, boundary, Pattern.ofChar, dateSteps, List.append_assoc] at hrest
    split at hrest
    · next hc =>
      obtain ⟨behind, htwenty, hdates⟩ := Step.follow_append_eq_some_iff.1 hrest
      have htwenty : t = '2' :: '0' :: behind := Step.follow_literal_eq_some_iff.1 htwenty
      obtain ⟨s, left, hmade, hdate, hcommas⟩ := Step.exists_of_follow_seconds hdates
      obtain ⟨_, hcomma, hfractions⟩ := Step.follow_append_eq_some_iff.1 hcommas
      obtain ⟨_, hdigits, hclose⟩ := Step.follow_append_eq_some_iff.1 hfractions
      obtain ⟨fraction, hfraction, rfl⟩ := Step.exists_of_follow_digits hdigits
      rw [Step.follow_literal_eq_some_iff] at hcomma hclose
      refine ⟨{ s with fraction }, rest, hmade fraction hfraction.ne_nil hfraction.forall_mem,
        hfraction.length_eq, ?_⟩
      rw [eq_of_beq hc, htwenty, hdate, hcomma, hclose]
      simp [StampParts.text, StampParts.date, StampParts.clock]
    · cases hrest

theorem Header.eq_of_ofWords {w w' : Text} {ws : List Text}
    (h : ofWords (w :: w' :: ws) = .ok header) : header.date = w ∧ header.time = w' := by
  unfold ofWords at h
  split at h
  · next heq =>
    cases heq
    cases h
    exact ⟨rfl, rfl⟩
  · cases h

/-- The first two words are the halves of the stamp with their brackets. -/
theorem startTimeText_of_stamp {s : StampParts} (hs : s.Made isDecimalDigit) {rest : Text}
    (hentry : entry = '[' :: (s.text ',' ++ ']' :: ' ' :: rest))
    (h : Header.ofWords (Header.words entry) = .ok header) :
    header.startTimeText = s.text ',' := by
  have hfirst : ∀ c ∈ '[' :: s.date, isBlank c = false :=
    List.forall_mem_cons.2 ⟨by decide, hs.date_not_blank⟩
  have hsecond : s.clock ++ ',' :: (s.fraction ++ [']']) ≠ [] ∧
      ∀ c ∈ s.clock ++ ',' :: (s.fraction ++ [']']), isBlank c = false := by
    have hcomma : isBlank ',' = false := by decide
    have hbracket : isBlank ']' = false := by decide
    simp only [List.forall_mem_append, List.forall_mem_cons]
    exact ⟨by simp, hs.clock_not_blank, hcomma, hs.fraction_not_blank, hbracket, nofun⟩
  obtain ⟨more, hcut⟩ := Pattern.exists_cut_words hfirst hsecond.1 hsecond.2
    (x := ' ') (by decide) rest
  have hwords : Header.words entry =
      ('[' :: s.date) :: (s.clock ++ ',' :: (s.fraction ++ [']'])) :: more := by
    rw [Header.words, hentry, ← hcut]
    simp [StampParts.text]
  rw [hwords] at h
  obtain ⟨hdate, htime⟩ := Header.eq_of_ofWords h
  have hlast : s.clock ++ ',' :: (s.fraction ++ [']']) = (s.clock ++ ',' :: s.fraction) ++ [']'] := by
    simp
  rw [Header.startTimeText, hdate, htime, hlast, List.dropLast_concat, List.drop_one,
    List.tail_cons, StampParts.text]

/-- A fault of the stamp is the fault of the entry. -/
theorem convert_of_stamp (hheader : Header.ofWords (Header.words entry) = .ok header) {zone : Zone}
    {schema : Text} {f : StampFault} (h : Stamp.read .comma zone header.startTimeText = .error f) :
    convert zone schema entry = .error (.fault (.stamp f)) := by
  rw [convert, hheader]
  change Extract.stamp .comma zone header.startTimeText >>= _ = _
  rw [Extract.stamp, h]
  rfl

end AccessLog

namespace NodeLog

variable {entry : Text} {header : Header}

/-- An entry that the boundary opens begins with a stamp of any mark. -/
theorem exists_of_opens (h : boundary.opens entry = true) :
    ∃ s : StampParts, ∃ mark rest, s.Made isDecimalDigit ∧ s.fraction.length = 3 ∧ mark ≠ '\n' ∧
      entry = s.text mark ++ ' ' :: '-' :: ' ' :: '[' :: rest := by
  obtain ⟨rest, hrest⟩ := Option.isSome_iff_exists.1 h
  cases entry with
  | nil => cases hrest
  | cons c t =>
    simp only [Pattern.rest?, boundary, Pattern.ofChar, List.append_assoc] at hrest
    split at hrest
    · next hc =>
      obtain ⟨behind, hzero, hdates⟩ := Step.follow_append_eq_some_iff.1 hrest
      have hzero : t = '0' :: behind := Step.follow_literal_eq_some_iff.1 hzero
      obtain ⟨s, left, hmade, hdate, hmarks⟩ := Step.exists_of_follow_seconds hdates
      obtain ⟨_, hmark, hfractions⟩ := Step.follow_append_eq_some_iff.1 hmarks
      obtain ⟨_, hdigits, hblock⟩ := Step.follow_append_eq_some_iff.1 hfractions
      obtain ⟨fraction, hfraction, rfl⟩ := Step.exists_of_follow_digits hdigits
      rw [Step.follow_literal_eq_some_iff] at hblock
      cases left with
      | nil => cases hmark
      | cons mark left =>
        rw [Step.follow] at hmark
        split at hmark
        · next hne =>
          have hleft : left = fraction ++ (" - [".toList ++ rest) := by
            rw [← hblock]
            exact Option.some.inj hmark
          refine ⟨{ s with fraction }, mark, rest,
            hmade fraction hfraction.ne_nil hfraction.forall_mem, hfraction.length_eq,
            by simpa using hne, ?_⟩
          rw [eq_of_beq hc, hzero, hdate, hleft]
          simp [StampParts.text, StampParts.date, StampParts.clock]
        · cases hmark
    · cases hrest

theorem Header.eq_of_ofWords {w w' : Text} {ws : List Text}
    (h : ofWords (w :: w' :: ws) = .ok header) : header.date = w ∧ header.time = w' := by
  unfold ofWords at h
  split at h
  · next heq =>
    cases heq
    cases h
    exact ⟨rfl, rfl⟩
  · cases h

/-- The first two words are the halves of the stamp, but a blank mark parts the second one. -/
theorem startTimeText_of_stamp {s : StampParts} (hs : s.Made isDecimalDigit) {mark : Char}
    {rest : Text} (hentry : entry = s.text mark ++ ' ' :: '-' :: ' ' :: '[' :: rest)
    (h : Header.ofWords (Header.words entry) = .ok header) :
    header.startTimeText =
      if isBlank mark then s.date ++ ' ' :: s.clock else s.text mark := by
  have hwords : ∃ more, Header.words entry =
      s.date :: (if isBlank mark then s.clock else s.clock ++ mark :: s.fraction) :: more := by
    rw [Header.words, hentry, StampParts.text, List.append_assoc, List.cons_append,
      List.append_assoc, List.cons_append]
    have hclock : s.clock ≠ [] := by simp [StampParts.clock]
    split
    · next hblank =>
      exact Pattern.exists_cut_words hs.date_not_blank hclock hs.clock_not_blank hblank _
    · next hblank =>
      have hsecond : ∀ c ∈ s.clock ++ mark :: s.fraction, isBlank c = false := by
        simp only [List.forall_mem_append, List.forall_mem_cons]
        exact ⟨hs.clock_not_blank, by simpa using hblank, hs.fraction_not_blank⟩
      have := Pattern.exists_cut_words hs.date_not_blank (by simp) hsecond (x := ' ') (by decide)
        ('-' :: ' ' :: '[' :: rest)
      rwa [List.append_assoc, List.cons_append] at this
  obtain ⟨more, hwords⟩ := hwords
  rw [hwords] at h
  obtain ⟨hdate, htime⟩ := Header.eq_of_ofWords h
  rw [Header.startTimeText, hdate, htime, StampParts.text]
  split <;> rfl

/-- With any other mark than a point, the stamp has no fraction that the reader finds. -/
theorem read_startTimeText {s : StampParts} (hs : s.Made isDecimalDigit) {mark : Char}
    {rest : Text} (hentry : entry = s.text mark ++ ' ' :: '-' :: ' ' :: '[' :: rest)
    (h : Header.ofWords (Header.words entry) = .ok header) (hmark : mark ≠ '.') (zone : Zone) :
    Stamp.read .point zone header.startTimeText =
      .error (.missingFraction header.startTimeText) := by
  have hdigit : isDecimalDigit '.' = false := by decide
  have hfraction : '.' ∉ s.fraction := by
    intro hmem
    rw [hs.fraction _ hmem] at hdigit
    cases hdigit
  have hnone : Stamp.hasFraction header.startTimeText = false := by
    have hsecond := hs.second.not_mem hdigit
    rw [startTimeText_of_stamp hs hentry h]
    split
    · have := Stamp.hasFraction_eq_false (s.date ++ ' ' :: (s.hour ++ ':' :: s.minute)) hsecond
      simpa [StampParts.clock] using this
    · have hbehind : '.' ∉ s.second ++ mark :: s.fraction := by
        simp [hsecond, hfraction, hmark.symm]
      have := Stamp.hasFraction_eq_false (s.date ++ ' ' :: (s.hour ++ ':' :: s.minute)) hbehind
      simpa [StampParts.text, StampParts.clock] using this
  rw [Stamp.read]
  simp [hnone]

/-- A fault of the stamp is the fault of the entry. -/
theorem convert_of_stamp (hheader : Header.ofWords (Header.words entry) = .ok header) {zone : Zone}
    {f : StampFault} (h : Stamp.read .point zone header.startTimeText = .error f) :
    convert zone entry = .error (.fault (.stamp f)) := by
  rw [convert, hheader]
  change Extract.stamp .point zone header.startTimeText >>= _ = _
  rw [Extract.stamp, h]
  rfl

end NodeLog

/-- A boundary and the reader of stamps agree on the lines whose stamps are in ASCII digits and, in
the log of a compute node, have a point before the fraction. The stamp of such an entry has its form,
and is read unless a number is outside the calendar or the clock or the local time does not exist. On
the other lines that a boundary opens they do not agree: a stamp with other decimal digits does not
have its form, and one with another mark has no fraction, so these entries are faulty. -/
theorem opened_stamps_read (zone : Zone) (schema : Text) {line entry : Text}
    (hentry : line <+: entry) :
    (AccessLog.boundary.opens line = true → ∀ header,
      AccessLog.Header.ofWords (AccessLog.Header.words entry) = .ok header →
        let read := Stamp.read .comma zone header.startTimeText
        ∃ s : StampParts, s.Made isDecimalDigit ∧ s.fraction.length = 3 ∧
          header.startTimeText = s.text ',' ∧
          (s.Made Char.isDigit → read = s.reading .comma zone) ∧
          (¬s.Made Char.isDigit →
            ∃ cause, read = .error (.invalid header.startTimeText .comma cause)) ∧
          ∀ f, read = .error f → AccessLog.convert zone schema entry = .error (.fault (.stamp f))) ∧
    (NodeLog.boundary.opens line = true → ∀ header,
      NodeLog.Header.ofWords (NodeLog.Header.words entry) = .ok header →
        let read := Stamp.read .point zone header.startTimeText
        ∃ s : StampParts, ∃ mark, s.Made isDecimalDigit ∧ s.fraction.length = 3 ∧ mark ≠ '\n' ∧
          s.text mark <+: entry ∧
          (mark = '.' → header.startTimeText = s.text '.' ∧
            (s.Made Char.isDigit → read = s.reading .point zone) ∧
            (¬s.Made Char.isDigit →
              ∃ cause, read = .error (.invalid header.startTimeText .point cause))) ∧
          (mark ≠ '.' → read = .error (.missingFraction header.startTimeText)) ∧
          ∀ f, read = .error f → NodeLog.convert zone entry = .error (.fault (.stamp f))) := by
  obtain ⟨more, rfl⟩ := hentry
  constructor
  · intro hopens header hheader read
    have hsteps : ∀ q, Step.run q ∉ AccessLog.boundary.steps := by
      intro q
      simp [AccessLog.boundary, AccessLog.dateSteps, Pattern.ofChar, Step.literal, Step.digits]
    obtain ⟨s, rest, hs, hlength, hline⟩ :=
      AccessLog.exists_of_opens (Pattern.opens_append hsteps hopens more)
    have htext := AccessLog.startTimeText_of_stamp hs hline hheader
    obtain ⟨hascii, hother⟩ := Stamp.read_of_text hs .comma (by decide) zone htext
    exact ⟨s, hs, hlength, htext, hascii, hother, fun f => AccessLog.convert_of_stamp hheader⟩
  · intro hopens header hheader read
    have hsteps : ∀ q, Step.run q ∉ NodeLog.boundary.steps := by
      intro q
      simp [NodeLog.boundary, Pattern.ofChar, Step.literal, Step.digits]
    obtain ⟨s, mark, rest, hs, hlength, hmark, hline⟩ :=
      NodeLog.exists_of_opens (Pattern.opens_append hsteps hopens more)
    refine ⟨s, mark, hs, hlength, hmark, hline ▸ List.prefix_append _ _, ?_, fun hne => ?_,
      fun f => NodeLog.convert_of_stamp hheader⟩
    · rintro rfl
      have htext := NodeLog.startTimeText_of_stamp hs hline hheader
      rw [if_neg (by decide)] at htext
      exact ⟨htext, Stamp.read_of_text hs .point (by decide) zone htext⟩
    · exact NodeLog.read_startTimeText hs hline hheader hne zone

def AccessLog.lineAt (time : String) : Text :=
  ("[2023-02-10 " ++ time ++ "] I [t] L - C T=4 [2023-02-10 00:03:15 398] 7 a\\;").toList

def NodeLog.lineAt (time : String) : Text :=
  ("2022-04-29 " ++ time ++ " - [user=u,host=h,port=1,schema=s] [len=1] a [len=2] [] " ++
    "# [rt=5,rows=1]").toList

/-- A comma in the log of a compute node and an Arabic digit in an access log open entries whose
stamps are not read. -/
theorem opened_stamps_not_read :
    (NodeLog.boundary.opens (NodeLog.lineAt "16:01:36,670") = true ∧
      NodeLog.convert (.fixed 0) (NodeLog.lineAt "16:01:36,670") =
        .error (.fault (.stamp (.missingFraction "2022-04-29 16:01:36,670".toList)))) ∧
    AccessLog.boundary.opens (AccessLog.lineAt "00:03:15,39٨") = true ∧
      AccessLog.convert (.fixed 0) [] (AccessLog.lineAt "00:03:15,39٨") =
        .error (.fault (.stamp (.invalid "2023-02-10 00:03:15,39٨".toList .comma .tooLong))) := by
  decide +kernel

/-- The stamps of these entries have their form and are read. -/
theorem opened_stamps_read_lineAt :
    (AccessLog.boundary.opens (AccessLog.lineAt "00:03:15,398") = true ∧
      ∃ s : StampParts, s.Made isDecimalDigit ∧ "2023-02-10 00:03:15,398".toList = s.text ',' ∧
        (s.Made Char.isDigit → s.reading .comma (.fixed 0) = .ok 1675987395398000)) ∧
    NodeLog.boundary.opens (NodeLog.lineAt "16:01:36.670") = true ∧
      ∃ s : StampParts, ∃ mark, s.Made isDecimalDigit ∧
        s.text mark <+: NodeLog.lineAt "16:01:36.670" ∧
        (mark = '.' → s.Made Char.isDigit →
          s.reading .point (.fixed 0) = .ok 1651248096670000) := by
  have haccess : AccessLog.boundary.opens (AccessLog.lineAt "00:03:15,398") = true := by
    decide +kernel
  have hnode : NodeLog.boundary.opens (NodeLog.lineAt "16:01:36.670") = true := by decide +kernel
  let header : AccessLog.Header := ⟨"[2023-02-10".toList, "00:03:15,398]".toList, "[t]".toList,
    "C".toList, "T=4".toList⟩
  have hheader : AccessLog.Header.ofWords
      (AccessLog.Header.words (AccessLog.lineAt "00:03:15,398")) = .ok header := by
    decide +kernel
  let nodeHeader : NodeLog.Header := ⟨"2022-04-29".toList, "16:01:36.670".toList,
    "[user=u,host=h,port=1,schema=s]".toList⟩
  have hnodeHeader : NodeLog.Header.ofWords
      (NodeLog.Header.words (NodeLog.lineAt "16:01:36.670")) = .ok nodeHeader := by
    decide +kernel
  obtain ⟨hread, -⟩ := opened_stamps_read (.fixed 0) [] (List.prefix_refl
    (AccessLog.lineAt "00:03:15,398"))
  obtain ⟨-, hnodeRead⟩ := opened_stamps_read (.fixed 0) [] (List.prefix_refl
    (NodeLog.lineAt "16:01:36.670"))
  obtain ⟨s, hs, -, htext, hascii, -⟩ := hread haccess header hheader
  obtain ⟨s', mark, hs', -, -, hline, hpoint, -⟩ := hnodeRead hnode nodeHeader hnodeHeader
  refine ⟨⟨haccess, s, hs, htext, fun h => ?_⟩, hnode, s', mark, hs', hline, fun hmark h => ?_⟩
  · rw [← hascii h]
    decide +kernel
  · rw [← (hpoint hmark).2.1 h]
    decide +kernel

end ReplayLog
