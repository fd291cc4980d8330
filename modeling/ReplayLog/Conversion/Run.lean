import ReplayLog.Dialect.Basic
import ReplayLog.Entry.Feed
import ReplayLog.Sink.Writer

/-! # Runs

A run converts one source into records. Entries are taken in order; the first fault stops the run,
and what was written before it stays written. Every run ends with one flush, and where that flush is
refused the refusal is the run's result, whatever stopped the run. An overflow stops everything at
once, without that flush. -/
namespace ReplayLog

/-- What a run depends on besides its source and its writer. -/
structure Settings where
  dialect : Dialect := .standard
  encoding : Encoding := .strict
  zone : Zone
  trailing : Trailing := .drop
  /-- The schema of records whose log names none. -/
  schema : Text := "cgljfl".toList
  maxEntryLines : Nat := 1000000
  maxEntryBytes : Nat := 256 * 1024 * 1024

/-- What a run has counted. -/
structure Tally where
  linesRead : Nat := 0
  /-- Lines before the first entry; known only of a run that reached the end of its source. -/
  preamble : Nat := 0
  seen : Nat := 0
  written : Nat := 0
  ignored : Nat := 0
  deriving DecidableEq

/-- Whether every entry seen was written or ignored. -/
def Tally.isBalanced (t : Tally) : Bool := t.seen == t.written + t.ignored

/-- How important a message is. -/
inductive Level
  | debug
  | info
  | warn
  | error
  deriving DecidableEq, Repr

def Level.name : Level → String
  | debug => "DEBUG"
  | info => "INFO"
  | warn => "WARN"
  | error => "ERROR"

/-- What a run remarks on. -/
inductive Remark
  | ignored (reason : Rejection)
  | dropped (e : Entry)

namespace Remark

def level : Remark → Level
  | ignored _ => .info
  | dropped _ => .debug

def message : Remark → String
  | ignored reason => s!"ignore {reason.message}"
  | dropped e =>
    s!"dropping unterminated entry starting at line {e.startLine} ({e.lineCount} lines)"

end Remark

/-- The state of a run. -/
structure Progress where
  tally : Tally := {}
  writer : Writer
  remarks : Array Remark := #[]

abbrev Progress.Result := Except (Halt RunFault) Unit

namespace Progress

def atLine (p : Progress) (linesRead : Nat) : Progress :=
  { p with tally := { p.tally with linesRead := linesRead } }

/-- Settles an outcome: writes its record or remarks on its rejection. An entry whose record is
refused was seen but neither written nor ignored. -/
def settle : Progress → Layout → Outcome → Result × Progress
  | ⟨tally, writer, remarks⟩, l, .emit r =>
    match writer.write l r with
    | (.error fault, writer) =>
      (.error (.fault (.write fault.message)),
        ⟨{ tally with seen := tally.seen + 1 }, writer, remarks⟩)
    | (.ok (), writer) =>
      (.ok (),
        ⟨{ tally with seen := tally.seen + 1, written := tally.written + 1 }, writer, remarks⟩)
  | ⟨tally, writer, remarks⟩, _, .ignore reason =>
    (.ok (),
      ⟨{ tally with seen := tally.seen + 1, ignored := tally.ignored + 1 }, writer,
        remarks.push (.ignored reason)⟩)
  | p, _, .empty => (.ok (), p)

def take {α : Type} (c : Converter α) (p : Progress) (a : Arrival α) : Result × Progress :=
  let p := p.atLine a.linesRead
  match c.convert a.entry with
  | .error (.overflow o) => (.error (.overflow o), p)
  | .error (.fault f) => (.error (.fault (.malformed a.startLine (c.render a.entry) f)), p)
  | .ok outcome => p.settle c.layout outcome

/-- Takes arrivals up to the first that stops the run. -/
def takeAll {α : Type} (c : Converter α) (p : Progress) : List (Arrival α) → Result × Progress
  | [] => (.ok (), p)
  | a :: as =>
    match p.take c a with
    | (.ok (), p) => takeAll c p as
    | (.error stop, p) => (.error stop, p)

def finish (p : Progress) (linesRead : Nat) : Ending → Result × Progress
  | .failed fault => (.error (.fault fault), p.atLine linesRead)
  | .finished preamble dropped =>
    let p := p.atLine linesRead
    (.ok (),
      { p with
        tally := { p.tally with preamble := preamble }
        remarks := match dropped with
          | some e => p.remarks.push (.dropped e)
          | none => p.remarks })

/-- Takes a whole feed. -/
def takeFeed {α : Type} (c : Converter α) (p : Progress) (feed : Feed α) : Result × Progress :=
  match p.takeAll c feed.arrivals with
  | (.ok (), p) => p.finish feed.linesRead feed.ending
  | (.error stop, p) => (.error stop, p)

/-- The flush at the end of a run, unless the run was stopped by an overflow. -/
def close : Result × Progress → Result × Progress
  | (.error (.overflow o), p) => (.error (.overflow o), p)
  | (r, p) =>
    match p.writer.flush with
    | (.ok (), w) => (r, { p with writer := w })
    | (.error fault, w) => (.error (.fault (.write fault.message)), { p with writer := w })

end Progress

namespace Settings

def segmentRule (s : Settings) (boundary : Pattern) : SegmentRule :=
  ⟨.opening boundary, s.trailing, s.maxEntryLines, s.maxEntryBytes⟩

def takeSource (s : Settings) (b : BufferedSource) (p : Progress) : Progress.Result × Progress :=
  let entries (layout : Layout) (boundary : Pattern) (convert : Text → Extract Outcome) :=
    p.takeFeed (.ofEntries layout convert)
      (.ofEntries (s.segmentRule boundary) (b.lines s.encoding))
  let events (layout : Layout) (convert : Json → Extract Outcome) :=
    p.takeFeed (.ofEvents layout convert) (.ofLines (b.lines s.encoding))
  match s.dialect with
  | .accessLog => entries AccessLog.layout AccessLog.boundary (AccessLog.convert s.zone s.schema)
  | .nodeLog => entries NodeLog.layout NodeLog.boundary (NodeLog.convert s.zone)
  | .sqlAudit => events SqlAudit.layout (SqlAudit.convert s.zone)
  | .serviceAudit => events ServiceAudit.layout ServiceAudit.convert
  | .serviceExport =>
    p.takeFeed (.ofRows ServiceAudit.layout (ServiceExport.convert s.zone))
      (.ofTable (Table.ofSource s.encoding b))

/-- Converts a source with a writer that may have been used before. -/
def run (s : Settings) (b : BufferedSource) (w : Writer) : Progress.Result × Progress :=
  Progress.close (s.takeSource b ⟨{}, w, #[]⟩)

end Settings
end ReplayLog
