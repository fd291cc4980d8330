import Mathlib.Algebra.Ring.Nat
import ReplayLog.Entry.Segmenter

/-! # Calls of a segmenter

A segmenter may be given lines and ends of lines in any order, and it goes on after an entry over a
limit. At every point each line taken is a line of the preamble, of exactly one entry handed out or
of the open entry, and the entries handed out are stretches of the lines taken, in their order. -/
namespace ReplayLog

namespace Entry

/-- The entry is the stretch of the lines that its numbers name. -/
def Covers (e : Entry) (lines : List Text) : Prop :=
  1 ≤ e.startLine ∧ 1 ≤ e.lineCount ∧ e.startLine + e.lineCount ≤ lines.length + 1 ∧
    e.lines.toList = (lines.drop (e.startLine - 1)).take e.lineCount

def OpensOnce (e : Entry) (opens : Text → Bool) : Prop :=
  ∃ first others, e.lines.toList = first :: others ∧ opens first = true ∧
    ∀ line ∈ others, opens line = false

def Before (e next : Entry) : Prop := e.startLine + e.lineCount ≤ next.startLine

/-- Every boundary line is the first line of one of the entries. -/
def Begun (opens : Text → Bool) (lines : List Text) (entries : List Entry) : Prop :=
  ∀ i line, lines[i]? = some line → opens line = true → ∃ e ∈ entries, e.startLine = i + 1

theorem Covers.append {e : Entry} {lines : List Text} (h : e.Covers lines) (more : List Text) :
    e.Covers (lines ++ more) := by
  obtain ⟨h₁, h₂, h₃, h₄⟩ := h
  refine ⟨h₁, h₂, by rw [List.length_append]; omega, ?_⟩
  rw [h₄, List.drop_append_of_le_length (by omega), List.take_append_of_le_length]
  rw [List.length_drop]
  omega

theorem Covers.first {e : Entry} {lines : List Text} (h : e.Covers lines) :
    e.lines[0]? = lines[e.startLine - 1]? := by
  obtain ⟨-, hcount, -, hlines⟩ := h
  rw [← Array.getElem?_toList, hlines, List.getElem?_take_of_lt hcount, List.getElem?_drop,
    Nat.add_zero]

theorem covers_ofLine (lines : List Text) (line : Text) :
    (OpenEntry.ofLine (lines.length + 1) line).toEntry.Covers (lines ++ [line]) := by
  refine ⟨?_, ?_, ?_, ?_⟩
  · exact Nat.le_add_left 1 lines.length
  · exact Nat.le_refl 1
  · simp [OpenEntry.ofLine, lineCount]
  · simp [OpenEntry.ofLine, lineCount]

/-- A stretch that reaches the end of the lines reaches it with one more line, too. -/
theorem Covers.push {e : OpenEntry} {lines : List Text} (h : e.toEntry.Covers lines)
    (hend : e.startLine + e.lineCount = lines.length + 1) (line : Text) :
    (e.push line).toEntry.Covers (lines ++ [line]) := by
  obtain ⟨h₁, h₂, h₃, h₄⟩ := h
  have hsize : (e.push line).lineCount = e.lineCount + 1 := by simp [OpenEntry.push, lineCount]
  have hdrop : (lines.drop (e.startLine - 1)).length = e.lineCount := by
    rw [List.length_drop]
    omega
  refine ⟨h₁, by omega, ?_, ?_⟩
  · change e.startLine + (e.push line).lineCount ≤ _
    rw [List.length_append, List.length_singleton]
    omega
  · change (e.lines.push line).toList =
      ((lines ++ [line]).drop (e.startLine - 1)).take (e.push line).lineCount
    rw [Array.toList_push, h₄, hsize, List.drop_append_of_le_length (by omega),
      List.take_of_length_le (by omega), List.take_of_length_le (by simp [hdrop])]

theorem opensOnce_ofLine {opens : Text → Bool} {line : Text} (h : opens line = true) (n : Nat) :
    (OpenEntry.ofLine n line).toEntry.OpensOnce opens :=
  ⟨line, [], rfl, h, by simp⟩

theorem OpensOnce.push {e : OpenEntry} {opens : Text → Bool} {line : Text}
    (h : e.toEntry.OpensOnce opens) (hl : opens line = false) :
    (e.push line).toEntry.OpensOnce opens := by
  obtain ⟨first, others, he, hfirst, hothers⟩ := h
  refine ⟨first, others ++ [line], ?_, hfirst, ?_⟩
  · change (e.lines.push line).toList = _
    rw [Array.toList_push, he]
    rfl
  · intro l hm
    rcases List.mem_append.1 hm with hm | hm
    · exact hothers l hm
    · rw [List.mem_singleton.1 hm]
      exact hl

theorem Begun.mono {opens : Text → Bool} {lines : List Text} {entries others : List Entry}
    (h : Begun opens lines entries)
    (hsub : ∀ e ∈ entries, ∃ e' ∈ others, e'.startLine = e.startLine) :
    Begun opens lines others := by
  intro i line hi hline
  obtain ⟨e, he, hstart⟩ := h i line hi hline
  obtain ⟨e', he', hsame⟩ := hsub e he
  exact ⟨e', he', hsame.trans hstart⟩

theorem Begun.concat {opens : Text → Bool} {lines : List Text} {entries : List Entry}
    (h : Begun opens lines entries) {line : Text}
    (hlast : opens line = true → ∃ e ∈ entries, e.startLine = lines.length + 1) :
    Begun opens (lines ++ [line]) entries := by
  intro i l hi hl
  rcases Nat.lt_trichotomy i lines.length with hbefore | rfl | hbehind
  · rw [List.getElem?_append_left hbefore] at hi
    exact h i l hi hl
  · rw [List.getElem?_concat_length] at hi
    cases hi
    exact hlast hl
  · have hnone : (lines ++ [line])[i]? = none := by
      rw [List.getElem?_eq_none_iff, List.length_append, List.length_singleton]
      exact hbehind
    rw [hnone] at hi
    cases hi

/-- A line that is no boundary asks for no entry. -/
theorem Begun.concat_of_not_opens {opens : Text → Bool} {lines : List Text} {entries : List Entry}
    (h : Begun opens lines entries) {line : Text} (hl : opens line = false) :
    Begun opens (lines ++ [line]) entries := by
  refine h.concat fun hopens => ?_
  rw [hl] at hopens
  cases hopens

end Entry

namespace Segmenter

inductive Call
  | line (t : Text)
  | flush

def Call.line? : Call → Option Text
  | line t => some t
  | flush => none

def linesOf (calls : List Call) : List Text := calls.filterMap Call.line?

def openEntries (s : Segmenter) : List Entry := (s.current.map (·.toEntry)).toList

def openLines (s : Segmenter) : Nat := s.current.elim 0 (·.lineCount)

/-- Answers a call with the entry that it completes, if it completes one. A line over a limit
completes none. -/
def serve (s : Segmenter) : Call → Option Entry × Segmenter
  | .line t => match s.addLine t with
    | (.ok e, s) => (e, s)
    | (.error _, s) => (none, s)
  | .flush => match s.flush with
    | (.completed e, s) => (some e, s)
    | (_, s) => (none, s)

def serveAll (s : Segmenter) : List Call → List Entry × Segmenter
  | [] => ([], s)
  | c :: calls =>
    ((s.serve c).1.toList ++ ((s.serve c).2.serveAll calls).1, ((s.serve c).2.serveAll calls).2)

section serve

variable {s : Segmenter} {opens : Text → Bool} {line : Text}

theorem serve_of_opens (h : s.rule.boundary = .marked opens) (hl : opens line = true) :
    s.serve (.line line) = (s.current.map (·.toEntry),
      ⟨s.rule, s.linesTaken + 1, s.preamble, some (.ofLine (s.linesTaken + 1) line)⟩) := by
  simp only [serve, addLine_of_opens h hl]

theorem serve_of_none (h : s.rule.boundary = .marked opens) (hl : opens line = false)
    (hc : s.current = none) :
    s.serve (.line line) = (none, ⟨s.rule, s.linesTaken + 1, s.preamble + 1, none⟩) := by
  simp only [serve, addLine_of_none h hl hc]

/-- A line goes into the open entry also when it carries the entry over a limit. -/
theorem serve_of_some {e : OpenEntry} (h : s.rule.boundary = .marked opens)
    (hl : opens line = false) (hc : s.current = some e) :
    s.serve (.line line) =
      (none, ⟨s.rule, s.linesTaken + 1, s.preamble, some (e.push line)⟩) := by
  simp only [serve, addLine_of_some h hl hc]
  cases exceeded? s.rule (e.push line) <;> rfl

theorem serve_flush (s : Segmenter) :
    s.serve .flush = match s.rule.trailing with
      | .drop => (none, s)
      | .emit => (s.current.map (·.toEntry), { s with current := none }) := by
  obtain ⟨⟨boundary, trailing, maxLines, maxBytes⟩, taken, preamble, current⟩ := s
  cases current <;> cases trailing <;> rfl

end serve

/-- What the entries handed out and the state have to do with the lines taken. -/
structure Accounted (opens : Text → Bool) (lines : List Text) (returned : List Entry)
    (s : Segmenter) : Prop where
  boundary : s.rule.boundary = .marked opens
  linesTaken : s.linesTaken = lines.length
  total : s.preamble + (returned.map Entry.lineCount).sum + s.openLines = lines.length
  covers : ∀ e ∈ returned, e.Covers lines
  opensOnce : ∀ e ∈ returned, e.OpensOnce opens
  ordered : returned.Pairwise Entry.Before
  begun : Entry.Begun opens lines (returned ++ s.openEntries)
  /-- The open entry reaches the last line taken. -/
  current : ∀ e, s.current = some e → e.toEntry.Covers lines ∧
    e.startLine + e.lineCount = lines.length + 1 ∧ e.toEntry.OpensOnce opens ∧
      ∀ r ∈ returned, r.Before e.toEntry

namespace Accounted

variable {opens : Text → Bool} {lines : List Text} {returned : List Entry} {s : Segmenter}

theorem start {rule : SegmentRule} (h : rule.boundary = .marked opens) :
    Accounted opens [] [] (Segmenter.start rule) where
  boundary := h
  linesTaken := rfl
  total := rfl
  covers := by simp
  opensOnce := by simp
  ordered := .nil
  begun := nofun
  current := by simp [Segmenter.start]

theorem handOut (h : Accounted opens lines returned s) :
    Accounted opens lines (returned ++ s.openEntries) { s with current := none } := by
  cases hc : s.current with
  | none =>
    have ht := h.total
    simp only [openLines, hc, Option.elim_none] at ht
    have hs : { s with current := none } = s := by
      obtain ⟨rule, taken, preamble, current⟩ := s
      simp only at hc
      rw [hc]
    simpa [hs, openEntries, hc] using h
  | some e =>
    obtain ⟨hcov, hend, honce, hbefore⟩ := h.current e hc
    have ht := h.total
    simp only [openLines, hc, Option.elim_some] at ht
    have hopen : s.openEntries = [e.toEntry] := by rw [openEntries, hc]; rfl
    refine ⟨h.boundary, h.linesTaken, ?_, ?_, ?_, ?_, ?_, by simp⟩
    · simp only [hopen, List.map_append, List.map_cons, List.map_nil, List.sum_append,
        List.sum_cons, List.sum_nil, openLines, Option.elim_none]
      omega
    · simpa [hopen, or_imp, forall_and] using ⟨h.covers, hcov⟩
    · simpa [hopen, or_imp, forall_and] using ⟨h.opensOnce, honce⟩
    · simpa [hopen, List.pairwise_append] using ⟨h.ordered, hbefore⟩
    · have hnone : openEntries { s with current := none } = [] := rfl
      rw [hnone, List.append_nil]
      exact h.begun

/-- An entry handed out or open is a stretch of the lines taken. -/
theorem covers_of_mem (h : Accounted opens lines returned s) {e : Entry}
    (he : e ∈ returned ++ s.openEntries) : e.Covers lines := by
  rcases List.mem_append.1 he with hreturned | hopen
  · exact h.covers e hreturned
  · obtain ⟨current, hc, rfl⟩ := Option.map_eq_some_iff.1 (Option.mem_toList.1 hopen)
    exact (h.current current hc).1

theorem openLine (h : Accounted opens lines returned s) (hc : s.current = none) {line : Text}
    (hl : opens line = true) :
    Accounted opens (lines ++ [line]) returned
      ⟨s.rule, s.linesTaken + 1, s.preamble, some (.ofLine (s.linesTaken + 1) line)⟩ := by
  have ht := h.total
  simp only [openLines, hc, Option.elim_none, Nat.add_zero] at ht
  refine ⟨h.boundary, by simp [h.linesTaken], ?_, fun e he => (h.covers e he).append _,
    h.opensOnce, h.ordered, ?_, ?_⟩
  · simp only [openLines, Option.elim_some, OpenEntry.ofLine, Entry.lineCount, List.length_append,
      List.length_singleton, List.size_toArray]
    omega
  · have hreturned : Entry.Begun opens lines returned := by
      simpa [openEntries, hc] using h.begun
    refine (hreturned.mono fun e he => ⟨e, List.mem_append_left _ he, rfl⟩).concat fun _ => ?_
    refine ⟨(OpenEntry.ofLine (s.linesTaken + 1) line).toEntry, by simp [openEntries], ?_⟩
    exact congrArg (· + 1) h.linesTaken
  · intro e he
    cases he
    refine ⟨h.linesTaken ▸ Entry.covers_ofLine lines line, ?_, Entry.opensOnce_ofLine hl _, ?_⟩
    · simp [OpenEntry.ofLine, Entry.lineCount, h.linesTaken]
    · intro r hr
      have hcov := (h.covers r hr).2.2.1
      change r.startLine + r.lineCount ≤ s.linesTaken + 1
      rw [h.linesTaken]
      exact hcov

theorem skipLine (h : Accounted opens lines returned s) (hc : s.current = none) {line : Text}
    (hl : opens line = false) :
    Accounted opens (lines ++ [line]) returned
      ⟨s.rule, s.linesTaken + 1, s.preamble + 1, none⟩ := by
  have ht := h.total
  simp only [openLines, hc, Option.elim_none, Nat.add_zero] at ht
  refine ⟨h.boundary, by simp [h.linesTaken], ?_, fun e he => (h.covers e he).append _,
    h.opensOnce, h.ordered, ?_, by simp⟩
  · simp only [openLines, Option.elim_none, List.length_append, List.length_singleton]
    omega
  · have hbegun : Entry.Begun opens lines (returned ++ []) := by
      simpa [openEntries, hc] using h.begun
    exact hbegun.concat_of_not_opens hl

theorem growLine (h : Accounted opens lines returned s) {e : OpenEntry} (hc : s.current = some e)
    {line : Text} (hl : opens line = false) :
    Accounted opens (lines ++ [line]) returned
      ⟨s.rule, s.linesTaken + 1, s.preamble, some (e.push line)⟩ := by
  obtain ⟨hcov, hend, honce, hbefore⟩ := h.current e hc
  have ht := h.total
  simp only [openLines, hc, Option.elim_some] at ht
  have hsize : (e.push line).lineCount = e.lineCount + 1 := by
    simp [OpenEntry.push, Entry.lineCount]
  refine ⟨h.boundary, by simp [h.linesTaken], ?_, fun r hr => (h.covers r hr).append _,
    h.opensOnce, h.ordered, ?_, ?_⟩
  · simp only [openLines, Option.elim_some, hsize, List.length_append, List.length_singleton]
    omega
  · have hgrown : Entry.Begun opens lines (returned ++ [(e.push line).toEntry]) := by
      refine h.begun.mono fun r hr => ?_
      rw [openEntries, hc] at hr
      rcases List.mem_append.1 hr with hr | hr
      · exact ⟨r, List.mem_append_left _ hr, rfl⟩
      · obtain rfl : r = e.toEntry := List.mem_singleton.1 hr
        exact ⟨_, List.mem_append_right _ (List.mem_singleton_self _), rfl⟩
    exact hgrown.concat_of_not_opens hl
  · intro grown hg
    cases hg
    refine ⟨hcov.push hend line, ?_, honce.push hl, hbefore⟩
    change e.startLine + (e.push line).lineCount = _
    rw [hsize, List.length_append, List.length_singleton]
    omega

/-- What one call keeps. -/
theorem serve (h : Accounted opens lines returned s) (c : Call) :
    Accounted opens (lines ++ c.line?.toList) (returned ++ (s.serve c).1.toList) (s.serve c).2 := by
  cases c with
  | flush =>
    rw [serve_flush]
    simp only [Call.line?, Option.toList_none, List.append_nil]
    cases s.rule.trailing with
    | drop => simpa using h
    | emit => exact h.handOut
  | line t =>
    simp only [Call.line?, Option.toList_some]
    cases hl : opens t with
    | true =>
      rw [serve_of_opens h.boundary hl]
      exact h.handOut.openLine rfl hl
    | false =>
      cases hc : s.current with
      | none =>
        rw [serve_of_none h.boundary hl hc, Option.toList_none, List.append_nil]
        exact h.skipLine hc hl
      | some e =>
        rw [serve_of_some h.boundary hl hc, Option.toList_none, List.append_nil]
        exact h.growLine hc hl

/-- What all calls keep. -/
theorem serveAll (h : Accounted opens lines returned s) (calls : List Call) :
    Accounted opens (lines ++ linesOf calls) (returned ++ (s.serveAll calls).1)
      (s.serveAll calls).2 := by
  induction calls generalizing lines returned s with
  | nil => simpa [linesOf, Segmenter.serveAll] using h
  | cons c calls ih =>
    have hnext := ih (h.serve c)
    have hlines : linesOf (c :: calls) = c.line?.toList ++ linesOf calls := by
      cases c <;> rfl
    rw [hlines]
    simpa only [Segmenter.serveAll, List.append_assoc] using hnext

end Accounted

theorem rule_serve (s : Segmenter) (c : Call) : (s.serve c).2.rule = s.rule := by
  obtain ⟨⟨boundary, trailing, maxLines, maxBytes⟩, taken, preamble, current⟩ := s
  cases c with
  | flush => cases current <;> cases trailing <;> rfl
  | line t =>
    cases boundary with
    | everyLine => rfl
    | marked opens =>
      cases hl : opens t with
      | true => rw [serve_of_opens rfl hl]
      | false =>
        cases current with
        | none => rw [serve_of_none rfl hl rfl]
        | some e => rw [serve_of_some rfl hl rfl]

theorem rule_serveAll (s : Segmenter) (calls : List Call) :
    (s.serveAll calls).2.rule = s.rule := by
  induction calls generalizing s with
  | nil => rfl
  | cons c calls ih => exact (ih _).trans (rule_serve s c)

/-- No line is lost, duplicated or moved, whatever the calls. The entries handed out, in order, are
disjoint stretches of the lines; each begins with its only boundary line, and every boundary line
begins one of them or the open entry. -/
theorem serveAll_keeps_lines (opens : Text → Bool) (trailing : Trailing) (maxLines maxBytes : Nat)
    (calls : List Call) :
    let lines := linesOf calls
    let returned := ((start ⟨.marked opens, trailing, maxLines, maxBytes⟩).serveAll calls).1
    let s := ((start ⟨.marked opens, trailing, maxLines, maxBytes⟩).serveAll calls).2
    s.preamble + (returned.map Entry.lineCount).sum + s.openLines = lines.length ∧
    (∀ e ∈ returned, 1 ≤ e.startLine ∧ 1 ≤ e.lineCount ∧
      e.startLine + e.lineCount ≤ lines.length + 1 ∧
      e.content = Text.joinLines ((lines.drop (e.startLine - 1)).take e.lineCount) ∧
      ∃ first others, (lines.drop (e.startLine - 1)).take e.lineCount = first :: others ∧
        opens first = true ∧ ∀ line ∈ others, opens line = false) ∧
    returned.Pairwise (fun e next => e.startLine + e.lineCount ≤ next.startLine) ∧
    (∀ i line, lines[i]? = some line → opens line = true →
      ∃ e ∈ returned ++ s.openEntries, e.startLine = i + 1 ∧ e.lines[0]? = some line) ∧
    (s.current.isSome = true ↔ 1 ≤ s.openLines) ∧
    s.serve .flush = match trailing with
      | .drop => (none, s)
      | .emit => (s.current.map (·.toEntry), { s with current := none }) := by
  intro lines returned s
  have h : Accounted opens lines returned s := by
    simpa using (Accounted.start rfl).serveAll calls
  refine ⟨h.total, ?_, h.ordered, ?_, ?_, ?_⟩
  · intro e he
    obtain ⟨hstart, hcount, hend, hlines⟩ := h.covers e he
    obtain ⟨first, others, hcons, honce⟩ := h.opensOnce e he
    exact ⟨hstart, hcount, hend, by rw [Entry.content, hlines], first, others, hlines ▸ hcons, honce⟩
  · intro i line hi hline
    obtain ⟨e, he, hstart⟩ := h.begun i line hi hline
    refine ⟨e, he, hstart, ?_⟩
    rw [(h.covers_of_mem he).first, hstart, Nat.add_sub_cancel, hi]
  · cases hc : s.current with
    | none => simp [openLines, hc]
    | some e =>
      simp only [openLines, hc, Option.elim_some, Option.isSome_some, true_iff]
      exact e.lines_pos
  · rw [serve_flush, show s.rule.trailing = trailing from congrArg _ (rule_serveAll _ calls)]

end Segmenter
end ReplayLog
