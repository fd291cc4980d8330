import ReplayLog.Entry.Fault

/-! # Entries of several lines

A segmenter takes lines one by one. A line that is a boundary opens an entry and completes the
open one; any other line continues the open entry, or belongs to the preamble if none is open.
Only a line that continues an entry is held against the limits, and an entry over a limit stays open
and goes on growing. -/
namespace ReplayLog

/-- Consecutive lines that belong together. -/
structure Entry where
  /-- The number of the first line, counted from 1. -/
  startLine : Nat
  lines : Array Text
  deriving DecidableEq

namespace Entry

def content (e : Entry) : Text := Text.joinLines e.lines.toList

def lineCount (e : Entry) : Nat := e.lines.size

end Entry

/-- An entry that may still grow. It has a line, and its size is known. -/
structure OpenEntry extends Entry where
  bytes : Nat
  lines_pos : 0 < lines.size
  bytes_eq : bytes = (Text.joinLines lines.toList).byteSize

namespace OpenEntry

/-- The entry of a first line. -/
def ofLine (number : Nat) (line : Text) : OpenEntry where
  startLine := number
  lines := #[line]
  bytes := line.byteSize
  lines_pos := by simp
  bytes_eq := by simp

def push (e : OpenEntry) (line : Text) : OpenEntry where
  startLine := e.startLine
  lines := e.lines.push line
  bytes := e.bytes + 1 + line.byteSize
  lines_pos := by simp
  bytes_eq := by
    have h : e.lines.toList ≠ [] := by
      have := e.lines_pos
      intro he
      simp [Array.toList_eq_nil_iff.1 he] at this
    rw [Array.toList_push, Text.joinLines_concat h, Text.byteSize_append, ← e.bytes_eq,
      Text.byteSize_cons]
    simp [Char.utf8Size, Nat.add_assoc]

end OpenEntry

/-- What becomes of the entry that is open when the lines end. -/
inductive Trailing
  /-- It is dropped, because nothing shows that it is complete. -/
  | drop
  /-- It counts as complete. -/
  | emit
  deriving DecidableEq, Repr

/-- Where entries begin. -/
inductive Boundary
  /-- Every line is an entry of its own. -/
  | everyLine
  /-- An entry begins with each line that passes a test. -/
  | marked (opens : Text → Bool)

def Boundary.opening (p : Pattern) : Boundary := .marked p.opens

/-- How lines are gathered into entries. -/
structure SegmentRule where
  boundary : Boundary
  trailing : Trailing := .drop
  maxLines : Nat := 1000000
  maxBytes : Nat := 256 * 1024 * 1024

/-- The state between two lines. -/
structure Segmenter where
  rule : SegmentRule
  /-- Number of lines taken. -/
  linesTaken : Nat
  /-- Number of lines before the first boundary. -/
  preamble : Nat
  current : Option OpenEntry

/-- What becomes of the open entry at the end of the lines. -/
inductive Closing
  | none
  | completed (e : Entry)
  | dropped (e : Entry)

namespace Segmenter

/-- The state before the first line. -/
def start (rule : SegmentRule) : Segmenter := ⟨rule, 0, 0, none⟩

/-- The limit that an open entry exceeds; lines are looked at before bytes. -/
def exceeded? (rule : SegmentRule) (e : OpenEntry) : Option Limit :=
  if rule.maxLines < e.lineCount then some (.lines rule.maxLines)
  else if rule.maxBytes < e.bytes then some (.bytes rule.maxBytes)
  else none

/-- Takes a line, which may complete an entry or carry the open one over a limit. -/
def addLine : Segmenter → Text → Except RunFault (Option Entry) × Segmenter
  | ⟨rule, taken, preamble, current⟩, line =>
    let number := taken + 1
    match rule.boundary with
    | .everyLine => (.ok (some ⟨number, #[line]⟩), ⟨rule, number, preamble, current⟩)
    | .marked opens =>
      if opens line then
        (.ok (current.map (·.toEntry)), ⟨rule, number, preamble, some (.ofLine number line)⟩)
      else match current with
        | none => (.ok none, ⟨rule, number, preamble + 1, none⟩)
        | some e =>
          let grown := e.push line
          (match exceeded? rule grown with
            | some limit => .error (.tooLarge grown.startLine limit)
            | none => .ok none,
            ⟨rule, number, preamble, some grown⟩)

section addLine

variable {s : Segmenter} {opens : Text → Bool} {line : Text}

theorem addLine_of_opens (h : s.rule.boundary = .marked opens) (hl : opens line = true) :
    s.addLine line = (.ok (s.current.map (·.toEntry)),
      ⟨s.rule, s.linesTaken + 1, s.preamble, some (.ofLine (s.linesTaken + 1) line)⟩) := by
  obtain ⟨rule, taken, preamble, current⟩ := s
  simp only at h
  simp only [addLine, h, hl, if_true]

theorem addLine_of_none (h : s.rule.boundary = .marked opens) (hl : opens line = false)
    (hc : s.current = none) :
    s.addLine line = (.ok none, ⟨s.rule, s.linesTaken + 1, s.preamble + 1, none⟩) := by
  obtain ⟨rule, taken, preamble, current⟩ := s
  simp only at h hc
  subst hc
  simp [addLine, h, hl]

theorem addLine_of_some {e : OpenEntry} (h : s.rule.boundary = .marked opens)
    (hl : opens line = false) (hc : s.current = some e) :
    s.addLine line = (match exceeded? s.rule (e.push line) with
        | some limit => .error (.tooLarge e.startLine limit)
        | none => .ok none,
      ⟨s.rule, s.linesTaken + 1, s.preamble, some (e.push line)⟩) := by
  obtain ⟨rule, taken, preamble, current⟩ := s
  simp only at h hc
  subst hc
  simp only [addLine, h, hl, Bool.false_eq_true, if_false]
  rfl

end addLine

/-- Ends the lines. A dropped entry stays open. -/
def flush (s : Segmenter) : Closing × Segmenter :=
  match s.current, s.rule.trailing with
  | none, _ => (.none, s)
  | some e, .emit => (.completed e.toEntry, { s with current := none })
  | some e, .drop => (.dropped e.toEntry, s)

end Segmenter
end ReplayLog
