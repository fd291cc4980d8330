import ReplayLog.Record.Layout

/-! # Writing records

A sink keeps lines in the order of their storing. It may refuse every line once it holds a number of
them, and it may refuse any of its flushes. A writer stores records in a sink and flushes it each
time the number of records written is a multiple of its interval. -/
namespace ReplayLog

/-- Why a sink refused. -/
inductive SinkFault
  | full
  | flushRefused
  deriving DecidableEq, Repr

def SinkFault.message : SinkFault → String
  | .full => "sink full"
  | .flushRefused => "flush refused"

/-- A number stands for the refusal of the one flush that it counts. -/
instance oneRefusedFlush : Coe (Option Nat) (Option (Nat → Bool)) := ⟨Option.map fun n m => m == n⟩

/-- What a sink holds and what it will refuse. -/
structure Sink where
  lines : Array Text := #[]
  /-- Number of flushes that reached the sink, refused ones too. -/
  flushes : Nat := 0
  /-- The number of lines from which on every line is refused. -/
  capacity : Option Nat := none
  /-- Which flushes, counted from 1, are refused; without it none is. -/
  refusedFlush : Option (Nat → Bool) := none

namespace Sink

/-- The empty sink that takes all lines and refuses one flush, counted from 1. -/
def refusing (n : Nat) : Sink := ⟨#[], 0, none, Coe.coe (some n)⟩

def text (s : Sink) : Text := s.lines.toList.flatMap (· ++ ['\n'])

/-- Stores a line, or refuses it as a whole. -/
def store : Sink → Text → Except SinkFault Unit × Sink
  | ⟨lines, flushes, capacity, refusedFlush⟩, line =>
    if capacity.any (· ≤ lines.size) then (.error .full, ⟨lines, flushes, capacity, refusedFlush⟩)
    else (.ok (), ⟨lines.push line, flushes, capacity, refusedFlush⟩)

/-- Flushes, or refuses to; a refused flush counts too. -/
def flush (s : Sink) : Except SinkFault Unit × Sink :=
  let n := s.flushes + 1
  (if s.refusedFlush.any (· n) then .error .flushRefused else .ok (), { s with flushes := n })

@[simp] theorem text_flush (s : Sink) : s.flush.2.text = s.text := rfl

end Sink

/-- A sink with the number of records written to it. -/
structure Writer where
  sink : Sink
  /-- The number of records between two flushes; at 0 there are none. -/
  interval : Nat
  written : Nat := 0

namespace Writer

/-- Flushes the sink. -/
def flush (w : Writer) : Except SinkFault Unit × Writer :=
  let (r, sink) := w.sink.flush
  (r, { w with sink := sink })

/-- Whether the number of records written asks for a flush. -/
def isDue (w : Writer) : Bool := w.interval != 0 && w.written % w.interval == 0

/-- Writes a record and flushes if that is due. A record whose flush is refused is stored and
counted all the same. -/
def write : Writer → Layout → Record → Except SinkFault Unit × Writer
  | ⟨sink, interval, written⟩, l, r =>
    match sink.store (l.line r) with
    | (.error fault, sink) => (.error fault, ⟨sink, interval, written⟩)
    | (.ok (), sink) =>
      let w : Writer := ⟨sink, interval, written + 1⟩
      if w.isDue then w.flush else (.ok (), w)

end Writer
end ReplayLog
