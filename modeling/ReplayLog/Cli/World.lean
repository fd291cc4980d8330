import ReplayLog.Cli.Run

/-! # A world held as a value

Files and directories by their paths, the room in memory, what was shown to the user and what was
logged. It is a host for the command on which every run can be reasoned about. -/
namespace ReplayLog.Cli

/-- What is at a place of a file system. -/
inductive Node
  | directory
  | file (bytes : List UInt8)
  /-- A device that gives nothing and keeps nothing. -/
  | void

abbrev Path := List Text

/-- A path as it is written. -/
structure Route where
  fromRoot : Bool
  names : List Text
  /-- Whether a slash follows the last name, so that it must be a directory's. -/
  toDirectory : Bool

/-- Files, directories and messages. -/
structure World where
  /-- The directory that relative paths start from. -/
  current : Path
  nodes : List (Path × Node)
  /-- Size of the largest buffer that the memory has room for. -/
  memory : Nat
  said : Array String := #[]
  logged : Array (Level × String) := #[]

def missing : String := "No such file or directory (os error 2)"

def notADirectory : String := "Not a directory (os error 20)"

def isDirectory : String := "Is a directory (os error 21)"

/-- The words for a path or a name past its limit. -/
def nameTooLong : String := "File name too long (os error 36)"

/-- Number of octets that a name may have. -/
def longestName : Nat := 255

/-- Number of octets that a path may have. -/
def longestPath : Nat := 4095

def Route.read (t : Text) : Except String Route :=
  if t.isEmpty then .error missing
  else if longestPath < t.byteSize then .error nameTooLong
  else .ok ⟨t.head? == some '/', (Pattern.cut [.char '/'] t).filter (!·.isEmpty),
    t.getLast? == some '/'⟩

namespace World

/-- What is at a place; the root and all directories above the current one are there. -/
def node? (w : World) (p : Path) : Option Node :=
  if p.isPrefixOf w.current then some .directory
  else (w.nodes.find? fun n => n.1 == p).map (·.2)

/-- The place that one name leads to; a dot stays, two dots go up. -/
def enter (place : Path) (name : Text) : Path :=
  if name == ['.'] then place
  else if name == ['.', '.'] then place.dropLast
  else place ++ [name]

/-- Follows names. Every place but the last must be a directory. -/
def walk (w : World) (place : Path) : List Text → Except String Path
  | [] => .ok place
  | name :: names =>
    match w.node? place with
    | some .directory =>
      if longestName < name.byteSize then .error nameTooLong
      else w.walk (enter place name) names
    | some _ => .error notADirectory
    | none => .error missing

def origin (w : World) (r : Route) : Path := if r.fromRoot then [] else w.current

def resolve (w : World) (t : Text) : Except String Path := do
  let r ← Route.read t
  w.walk (w.origin r) (if r.toDirectory then r.names ++ [['.']] else r.names)

/-- The place for a file that may have to be created. A slash behind its name is refused whatever is
there. -/
def resolveNew (w : World) (t : Text) : Except String Path := do
  let r ← Route.read t
  if r.toDirectory then
    let _ ← w.walk (w.origin r) (r.names.dropLast ++ [['.']])
    throw isDirectory
  w.walk (w.origin r) r.names

def put (w : World) (p : Path) (bytes : List UInt8) : World :=
  { w with nodes := (p, .file bytes) :: w.nodes.filter fun n => n.1 != p }

/-- Creates a file in an existing directory, or empties it. -/
def truncate (t : Text) (w : World) : Except String Unit × World :=
  match w.resolveNew t with
  | .error reason => (.error reason, w)
  | .ok p =>
    match w.node? p with
    | some .directory => (.error isDirectory, w)
    | some .void => (.ok (), w)
    | _ => (.ok (), w.put p [])

/-- Opens a file; a directory can be opened too and fails at the first read. -/
def openSource (t : Text) (w : World) : Except String Source := do
  match w.node? (← w.resolve t) with
  | some (.file bytes) => return .ofReads [bytes] none
  | some .void => return .ofReads [] none
  | some .directory => return .ofReads [] (some isDirectory)
  | none => throw missing

def contents? (w : World) (t : Text) : Option (List UInt8) :=
  match w.resolve t with
  | .error _ => none
  | .ok p => match w.node? p with
    | some (.file bytes) => some bytes
    | _ => none

def append (t text : Text) (w : World) : World :=
  match w.resolve t with
  | .error _ => w
  | .ok p => match w.node? p with
    | some (.file bytes) => w.put p (bytes ++ text.toUtf8)
    | _ => w

def host : Host (StateM World) where
  memory := fun w => (w.memory, w)
  truncate t := fun w => w.truncate t
  openSource t := fun w => (w.openSource t, w)
  append t text := modify (append t text)
  say s := modify fun w => { w with said := w.said.push s }
  log level s := modify fun w => { w with logged := w.logged.push (level, s) }

def runCommand (w : World) (localZone : Zone) (args : List Text) : Exit × World :=
  (run host localZone args).run w

end World
end ReplayLog.Cli
