import ReplayLog.Entry.Segmenter
import ReplayLog.Source.Lines
import ReplayLog.Table.Row

/-! # Feeds

A feed is what a source amounts to before anything is converted: the entries in the order in which
they are complete, each with the number of lines read by then, and how the source ended. Line-based
logs are fed by gathering trimmed lines into entries, event logs by their trimmed lines that are not
blank, tables by their rows. -/
namespace ReplayLog

/-- A complete entry. -/
structure Arrival (α : Type) where
  /-- Number of lines read when the entry was complete. -/
  linesRead : Nat
  /-- The line that the entry starts on. -/
  startLine : Nat
  entry : α

/-- How a source ended. -/
inductive Ending
  | failed (fault : RunFault)
  /-- It was read to its end, with so many lines before the first entry and perhaps an entry left
  open and dropped. -/
  | finished (preamble : Nat) (dropped : Option Entry)

/-- The entries of a source and its end. -/
structure Feed (α : Type) where
  arrivals : List (Arrival α)
  /-- Number of lines read at the end. -/
  linesRead : Nat
  ending : Ending

namespace Feed

/-- The arrival of an entry completed by the last line taken. -/
def arrivalOf (s : Segmenter) (e : Entry) : Arrival Text := ⟨s.linesTaken, e.startLine, e.content⟩

/-- The end of the lines, behind the arrivals (in reverse) so far. -/
def closeEntries (arrived : List (Arrival Text)) (s : Segmenter) : Feed Text :=
  match s.flush.1 with
  | .none => ⟨arrived.reverse, s.linesTaken, .finished s.preamble none⟩
  | .completed e => ⟨(arrivalOf s e :: arrived).reverse, s.linesTaken, .finished s.preamble none⟩
  | .dropped e => ⟨arrived.reverse, s.linesTaken, .finished s.preamble (some e)⟩

/-- Gathers lines into entries, behind the arrivals (in reverse) so far. -/
def gatherFrom (arrived : List (Arrival Text)) (s : Segmenter) :
    List (Except ReadFault Text) → Feed Text
  | [] => closeEntries arrived s
  | .error fault :: _ => ⟨arrived.reverse, s.linesTaken, .failed (.read fault)⟩
  | .ok line :: lines =>
    match s.addLine line.trim with
    | (.ok none, s) => gatherFrom arrived s lines
    | (.ok (some e), s) => gatherFrom (arrivalOf s e :: arrived) s lines
    | (.error fault, s) => ⟨arrived.reverse, s.linesTaken, .failed fault⟩

def ofEntries (rule : SegmentRule) (lines : List (Except ReadFault Text)) : Feed Text :=
  gatherFrom [] (.start rule) lines

/-- The trimmed lines that are not blank, behind the arrivals (in reverse) of so many lines. -/
def lineByLineFrom (arrived : List (Arrival Text)) (linesRead : Nat) :
    List (Except ReadFault Text) → Feed Text
  | [] => ⟨arrived.reverse, linesRead, .finished 0 none⟩
  | .error fault :: _ => ⟨arrived.reverse, linesRead, .failed (.read fault)⟩
  | .ok line :: lines =>
    let number := linesRead + 1
    if line.isBlankText then lineByLineFrom arrived number lines
    else lineByLineFrom (⟨number, number, line.trim⟩ :: arrived) number lines

/-- The trimmed lines that are not blank. -/
def ofLines (lines : List (Except ReadFault Text)) : Feed Text := lineByLineFrom [] 0 lines

/-- The rows, behind the arrivals (in reverse) so far; the line of the last row counts as read. -/
def rowByRowFrom (arrived : List (Arrival Row)) (linesRead : Nat) :
    List (Except RunFault (Nat × Row)) → Feed Row
  | [] => ⟨arrived.reverse, linesRead, .finished 0 none⟩
  | .error fault :: _ => ⟨arrived.reverse, linesRead, .failed fault⟩
  | .ok (line, row) :: rows => rowByRowFrom (⟨line, line, row⟩ :: arrived) line rows

def ofTable : Except RunFault Table → Feed Row
  | .ok t => rowByRowFrom [] 0 t.items
  | .error fault => ⟨[], 0, .failed fault⟩

end Feed
end ReplayLog
