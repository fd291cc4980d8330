import ReplayLog.Conversion.Run
import ReplayLog.Time.Offset

/-! # Command-line arguments

An option takes a value: the rest of its own argument, or the next argument unless that looks like an
option itself. A switch takes none, and short switches can be run together. No option and no switch
may come twice, and nothing else may stand on the command line. The arguments are taken from left to
right, so a request for help counts unless something before it was wrong. -/
namespace ReplayLog.Cli

/-- What takes a value. -/
inductive Key
  | src
  | dest
  | format
  | schema
  | flushInterval
  | utcOffset
  | bufferSize
  deriving DecidableEq, Repr

/-- What takes no value. -/
inductive Switch
  | flushTrailing
  | lossyUtf8
  | verbose
  | help
  | version
  deriving DecidableEq, Repr

/-- What an argument can name. -/
inductive Named
  | key (k : Key)
  | switch (s : Switch)

def ofLongName? (name : Text) : Option Named :=
  match String.ofList name with
  | "src" => some (.key .src)
  | "dest" => some (.key .dest)
  | "format" => some (.key .format)
  | "schema" => some (.key .schema)
  | "flush-interval" => some (.key .flushInterval)
  | "utc-offset" => some (.key .utcOffset)
  | "buffer-size" => some (.key .bufferSize)
  | "flush-trailing" => some (.switch .flushTrailing)
  | "lossy-utf8" => some (.switch .lossyUtf8)
  | "verbose" => some (.switch .verbose)
  | "help" => some (.switch .help)
  | "version" => some (.switch .version)
  | _ => none

def ofLetter? : Char → Option Named
  | 's' => some (.key .src)
  | 'd' => some (.key .dest)
  | 'f' => some (.key .format)
  | 'v' => some (.switch .verbose)
  | 'h' => some (.switch .help)
  | 'V' => some (.switch .version)
  | _ => none

/-- Why the arguments ask for no conversion. -/
inductive Stop
  | usage
  | help
  | version
  | overflow (o : Overflow)
  deriving DecidableEq, Repr

/-- The values given on a command line. -/
structure Arguments where
  src : Option Text := none
  dest : Option Text := none
  format : Option Dialect := none
  schema : Option Text := none
  flushInterval : Option Nat := none
  utcOffset : Option Int := none
  bufferSize : Option Nat := none
  switches : List Switch := []

namespace Arguments

/-- A path, which must not be empty. -/
def path (t : Text) : Except Stop Text := if t.isEmpty then .error .usage else .ok t

/-- A number of 64 bits without a sign of minus. -/
def size (t : Text) : Except Stop Nat :=
  match Integer.readUnsigned .nat64 t with
  | .ok n => .ok n.toNat
  | .error _ => .error .usage

def dialect (t : Text) : Except Stop Dialect :=
  match Dialect.ofName? false t with
  | some d => .ok d
  | none => .error .usage

def offset (t : Text) : Except Stop Int :=
  match Offset.read t with
  | .ok east => .ok east
  | .error (.fault _) => .error .usage
  | .error (.overflow o) => .error (.overflow o)

/-- A value that may be given once. -/
def once {α : Type} (old : Option α) (new : Except Stop α) : Except Stop (Option α) :=
  match old with
  | some _ => .error .usage
  | none => new.map some

def set (a : Arguments) (k : Key) (t : Text) : Except Stop Arguments :=
  match k with
  | .src => (once a.src (path t)).map fun v => { a with src := v }
  | .dest => (once a.dest (path t)).map fun v => { a with dest := v }
  | .format => (once a.format (dialect t)).map fun v => { a with format := v }
  | .schema => (once a.schema (.ok t)).map fun v => { a with schema := v }
  | .flushInterval => (once a.flushInterval (size t)).map fun v => { a with flushInterval := v }
  | .utcOffset => (once a.utcOffset (offset t)).map fun v => { a with utcOffset := v }
  | .bufferSize => (once a.bufferSize (size t)).map fun v => { a with bufferSize := v }

def turnOn (a : Arguments) : Switch → Except Stop Arguments
  | .help => .error .help
  | .version => .error .version
  | s => if a.switches.contains s then .error .usage else .ok { a with switches := s :: a.switches }

/-- Whether an argument looks like an option: a dash with something behind it. -/
def looksLikeOption : Text → Bool
  | '-' :: _ :: _ => true
  | _ => false

/-- Whether the value of an option may look like an option itself. -/
def takesAnything (k : Key) : Bool := k == .utcOffset

/-- The value attached to a letter, with or without an equals sign. -/
def attached : Text → Text
  | '=' :: t => t
  | t => t

/-- Takes letters run together. The last one may be an option, which has the rest as its value or
waits for one. -/
def takeLetters (a : Arguments) : Text → Except Stop (Option Key × Arguments)
  | [] => .ok (none, a)
  | c :: t =>
    match ofLetter? c with
    | none => .error .usage
    | some (.switch s) => do takeLetters (← a.turnOn s) t
    | some (.key k) =>
      if t.isEmpty then .ok (some k, a) else (a.set k (attached t)).map fun a => (none, a)

/-- Takes a long name, perhaps with a value behind an equals sign. -/
def takeLong (a : Arguments) (t : Text) : Except Stop (Option Key × Arguments) :=
  let name := t.takeWhile (· != '=')
  match ofLongName? name, t.drop name.length with
  | none, _ => .error .usage
  | some (.switch s), [] => (a.turnOn s).map fun a => (none, a)
  | some (.switch _), _ => .error .usage
  | some (.key k), [] => .ok (some k, a)
  | some (.key k), _ :: value => (a.set k value).map fun a => (none, a)

/-- Takes arguments, the first of which may be awaited as a value. Behind two dashes alone nothing
may follow. -/
def takeAll (a : Arguments) : (awaiting : Option Key) → List Text → Except Stop Arguments
  | none, [] => .ok a
  | some _, [] => .error .usage
  | some k, t :: rest =>
    if looksLikeOption t && !takesAnything k then .error .usage
    else do takeAll (← a.set k t) none rest
  | none, t :: rest =>
    match t with
    | ['-', '-'] => if rest.isEmpty then .ok a else .error .usage
    | '-' :: '-' :: long => do
      let (awaiting, a) ← a.takeLong long
      takeAll a awaiting rest
    | '-' :: c :: letters => do
      let (awaiting, a) ← a.takeLetters (c :: letters)
      takeAll a awaiting rest
    | _ => .error .usage

def read (args : List Text) : Except Stop Arguments := takeAll {} none args

/-- Whether a switch is on. -/
def has (a : Arguments) (s : Switch) : Bool := a.switches.contains s

/-- The settings that the arguments ask for; without an offset, times are local. -/
def settings (a : Arguments) (localZone : Zone) : Settings :=
  let plain : Settings := { zone := localZone }
  { dialect := a.format.getD plain.dialect
    encoding := if a.has .lossyUtf8 then .lossy else .strict
    zone := (a.utcOffset.map Zone.fixed).getD localZone
    trailing := if a.has .flushTrailing then .emit else .drop
    schema := a.schema.getD plain.schema }

def interval (a : Arguments) : Nat := a.flushInterval.getD 10000

def capacity (a : Arguments) : Nat := a.bufferSize.getD 65536

end Arguments
end ReplayLog.Cli
