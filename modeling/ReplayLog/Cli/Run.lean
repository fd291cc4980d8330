import ReplayLog.Cli.Arguments
import ReplayLog.Text.Terminal

/-! # The command

The command empties the destination, opens the source, converts it and appends the records to the
destination. It does so through a host, which stands for a file system, a memory and a place for
messages, so that the same command runs on a machine and on a file system held as a value. A logged
message is indented behind its first line and carries no terminal controls. -/
namespace ReplayLog.Cli

/-- What the command needs of the world. Failures are in the world's own words. -/
structure Host (m : Type → Type) where
  /-- Size of the largest buffer that the memory has room for. -/
  memory : m Nat
  /-- Creates a file, or empties it. -/
  truncate : Text → m (Except String Unit)
  /-- Opens a file for reading. -/
  openSource : Text → m (Except String Source)
  /-- Appends text to a file. -/
  append : Text → Text → m Unit
  /-- Shows a line to the user. -/
  say : String → m Unit
  /-- Logs a message that is laid out already. -/
  log : Level → String → m Unit

/-- What stands in front of every line of a message but the first. -/
def indentation : Text := [' ', ' ', ' ', ' ']

def indent (message : Text) : Text :=
  message.flatMap fun c => if c == '\n' then c :: indentation else [c]

/-- The message as it is logged. Terminal controls are left out of the indented lines, since the
indentation counts among the characters of a sequence that goes on behind the end of a line. -/
def layOut (message : String) : String :=
  String.ofList (Terminal.plain (indent message.toList))

namespace Host

variable {m : Type → Type} [Monad m]

/-- Logs a message; those for tracing faults only on request. -/
def logUnlessQuiet (h : Host m) (verbose : Bool) (level : Level) (message : String) : m Unit :=
  if level = .debug ∧ !verbose then pure () else h.log level (layOut message)

def logAll (h : Host m) (verbose : Bool) : List (Level × String) → m Unit
  | [] => pure ()
  | (level, message) :: rest => do
    h.logUnlessQuiet verbose level message
    h.logAll verbose rest

end Host

/-- A fault with its causes, behind what was going on. -/
def chain (context : String) (f : RunFault) : String :=
  ": ".intercalate (context :: f.message :: f.causes)

def tallyMessage (t : Tally) : Level × String :=
  (.debug, s!"lines read: {t.linesRead}, entries: {t.seen}, preamble lines: {t.preamble}")

/-- The messages about the end of a run: what was done, or the entry at fault and why it stopped. -/
def endMessages (src : String) (t : Tally) : Except RunFault Unit → List (Level × String)
  | .ok () => [(.info, s!"--- end --- {t.written} written, {t.ignored} ignored")]
  | .error f =>
    let entry := match f.offendingEntry? with
      | some e => [(Level.error, String.ofList e)]
      | none => []
    entry ++
      [(.error, chain s!"Conversion of '{src}' aborted after {t.written} records" f)]

/-- How the program ends. -/
inductive Exit
  | code (n : Nat)
  /-- It is stopped from outside and gives no code. -/
  | aborted
  deriving DecidableEq, Repr

namespace Exit

/-- The end of a run that went well, or of help that was asked for. -/
def success : Exit := .code 0

def failure : Exit := .code 1

def usage : Exit := .code 2

def overflow : Exit := .code 101

end Exit

/-- Converts an opened source into an empty destination. -/
def convert {m : Type → Type} [Monad m] (h : Host m) (a : Arguments) (localZone : Zone)
    (src dest : Text) (source : Source) : m Exit := do
  let verbose := a.has .verbose
  let name := String.ofList src
  h.logAll verbose [(.info, s!"begin analyse {name}")]
  let (result, p) :=
    (a.settings localZone).run (.ofSource a.capacity source) { sink := {}, interval := a.interval }
  h.logAll verbose (p.remarks.toList.map fun r => (r.level, r.message))
  h.append dest p.writer.sink.text
  match result with
  | .error (.overflow o) =>
    h.say o.message
    return .overflow
  | .ok () =>
    h.logAll verbose (tallyMessage p.tally :: endMessages name p.tally (.ok ()))
    return .success
  | .error (.fault f) =>
    h.logAll verbose (tallyMessage p.tally :: endMessages name p.tally (.error f))
    return .failure

/-- Number of bytes that no buffer may exceed, whatever the memory. -/
def greatestCapacity : Nat := 9223372036854775807

/-- Opens the files and converts. The destination is emptied before anything else is looked at; a
buffer of a size that cannot be, or that the memory has no room for, stops the program before the
source is opened. -/
def convertFiles {m : Type → Type} [Monad m] (h : Host m) (a : Arguments) (localZone : Zone)
    (src dest : Text) : m Exit := do
  let verbose := a.has .verbose
  let dialect := (a.settings localZone).dialect
  if a.has .flushTrailing && !dialect.isMultiline then
    h.logAll verbose [(.warn, s!"--flush-trailing has no effect for {dialect.name}")]
  match ← h.truncate dest with
  | .error reason =>
    h.logAll verbose
      [(.error, s!"Failed to open destination file '{String.ofList dest}': {reason}")]
    return .failure
  | .ok () =>
    if greatestCapacity < a.capacity then
      h.say "capacity overflow"
      return .overflow
    if (← h.memory) < a.capacity then
      h.say s!"memory allocation of {a.capacity} bytes failed"
      return .aborted
    match ← h.openSource src with
    | .error reason =>
      h.logAll verbose [(.error, s!"Failed to open source file '{String.ofList src}': {reason}")]
      return .failure
    | .ok source => convert h a localZone src dest source

def usage : String :=
  "usage: -s SRC -d DEST [-f FORMAT] [--schema NAME] [--flush-interval N] [--buffer-size N] " ++
    "[--utc-offset OFFSET] [--flush-trailing] [--lossy-utf8] [-v]"

def version : String := "0.3.0"

/-- Runs the command. -/
def run {m : Type → Type} [Monad m] (h : Host m) (localZone : Zone) (args : List Text) :
    m Exit := do
  match Arguments.read args with
  | .error .usage =>
    h.say usage
    return .usage
  | .error .help =>
    h.say usage
    return .success
  | .error .version =>
    h.say version
    return .success
  | .error (.overflow o) =>
    h.say o.message
    return .overflow
  | .ok a =>
    match a.src, a.dest with
    | some src, some dest => convertFiles h a localZone src dest
    | _, _ =>
      h.say "ERROR: need -s and -d"
      return .usage

end ReplayLog.Cli
