import ReplayLog.Json.Value
import ReplayLog.Text.Pattern
import ReplayLog.Text.Utf8
import ReplayLog.Time.Stamp

/-! # Faults

A fault of an entry is why no record can be made of it. A fault of a run is why the run stopped. Each
has one wording, and the wordings of what lies beneath it follow from the innermost cause. -/
namespace ReplayLog

/-- A rule that an entry has a number of pieces at least. -/
structure PieceRule where
  name : String
  least : Nat
  deriving DecidableEq, Repr

/-- Why no record can be made of an entry. -/
inductive EntryFault
  | missingPiece (rule : PieceRule) (found : Nat)
  | missingField (name : Text)
  | notAnObject (kind : String)
  | wrongType (name : Text) (kind : String)
  | integer (name text : Text) (cause : IntegerFault)
  | decimal (name text : Text) (cause : DecimalFault)
  | stamp (fault : StampFault)
  | json (fault : Json.Fault)
  /-- The table could not be read on. -/
  | table (reason : String)
  deriving DecidableEq

namespace EntryFault

def message : EntryFault → String
  | missingPiece rule found =>
    s!"rule '{rule.name}' expected at least {rule.least} pieces, found {found}"
  | missingField name => s!"missing field '{String.ofList name}'"
  | notAnObject kind => s!"expected a JSON object, got {kind}"
  | wrongType name kind =>
    s!"field '{String.ofList name}' must be a string or number, got {kind}"
  | integer name text _ =>
    s!"invalid integer for {String.ofList name}: '{String.ofList text}'"
  | decimal name text _ =>
    s!"invalid decimal for {String.ofList name}: '{String.ofList text}'"
  | stamp fault => fault.message
  | json fault => s!"JSON parse error: {fault.message}"
  | table reason => s!"CSV parse error: {reason}"

/-- The wordings of the causes beneath a fault, the nearest first. -/
def causes : EntryFault → List String
  | integer _ _ cause => [cause.message]
  | decimal _ _ cause => [cause.message]
  | stamp (.invalid _ _ cause) => [cause.message]
  | json fault => [fault.message]
  | table reason => [reason, reason]
  | _ => []

end EntryFault

/-- What making a record of an entry gives: a value, a fault, or an overflow. -/
abbrev Extract := Except (Halt EntryFault)

def Extract.fail {α : Type} (fault : EntryFault) : Extract α := .error (.fault fault)

/-- Why nothing more can be read from a source. -/
inductive ReadFault
  | refused (reason : String)
  | notUtf8 (fault : Utf8.Fault)
  deriving DecidableEq

def ReadFault.message : ReadFault → String
  | refused reason => reason
  | notUtf8 fault => fault.message

/-- The bounds on an entry. -/
inductive Limit
  | lines (most : Nat)
  | bytes (most : Nat)
  deriving DecidableEq

def Limit.message : Limit → String
  | lines most => s!"{most} lines"
  | bytes most => s!"{most} bytes"

/-- Why a run stopped. Entries are named by the line that they start on. -/
inductive RunFault
  | read (fault : ReadFault)
  | write (reason : String)
  | malformed (line : Nat) (entry : Text) (fault : EntryFault)
  | tooLarge (line : Nat) (limit : Limit)
  deriving DecidableEq

namespace RunFault

def message : RunFault → String
  | read fault => s!"IO error: {fault.message}"
  | write reason => s!"IO error: {reason}"
  | malformed line _ fault => s!"malformed entry starting at line {line}: {fault.message}"
  | tooLarge line limit =>
    s!"entry starting at line {line} exceeds {limit.message} " ++
      "(set a larger limit or check the boundary pattern)"

/-- The wordings of the causes beneath a fault, the nearest first. -/
def causes : RunFault → List String
  | read fault => [fault.message]
  | write reason => [reason]
  | malformed _ _ fault => fault.message :: fault.causes
  | tooLarge _ _ => []

/-- The entry that a fault is about, if it is about one. -/
def offendingEntry? : RunFault → Option Text
  | malformed _ entry _ => some entry
  | _ => none

end RunFault
end ReplayLog
