import ReplayLog.Dialect.AccessLog
import ReplayLog.Dialect.NodeLog
import ReplayLog.Dialect.ServiceExport

/-! # Dialects

The dialects are the kinds of logs that can be converted. Each has a name, a layout for its records
and its way of making outcomes of entries. -/
namespace ReplayLog

/-- A kind of log. -/
inductive Dialect
  | accessLog
  | nodeLog
  | sqlAudit
  | serviceAudit
  | serviceExport
  deriving DecidableEq, Repr

namespace Dialect

def name : Dialect → String
  | accessLog => "adb-access"
  | nodeLog => "polarx-cn"
  | sqlAudit => "polarx-audit"
  | serviceAudit => "rds-audit"
  | serviceExport => "rds-csv"

def all : List Dialect := [accessLog, nodeLog, sqlAudit, serviceAudit, serviceExport]

/-- The dialect that is meant where none is named. -/
def standard : Dialect := sqlAudit

/-- The dialect of a name, in any case of letters on request. -/
def ofName? (ignoreCase : Bool) (t : Text) : Option Dialect :=
  all.find? fun d =>
    if ignoreCase then t.sameIgnoringCase d.name.toList else t == d.name.toList

/-- The pattern that opens the entries of a dialect whose entries have several lines. -/
def boundary? : Dialect → Option Pattern
  | accessLog => some AccessLog.boundary
  | nodeLog => some NodeLog.boundary
  | _ => none

/-- Whether the entries of a dialect have several lines. -/
def isMultiline (d : Dialect) : Bool := d.boundary?.isSome

def layout : Dialect → Layout
  | accessLog => AccessLog.layout
  | nodeLog => NodeLog.layout
  | sqlAudit => SqlAudit.layout
  | serviceAudit => ServiceAudit.layout
  | serviceExport => ServiceAudit.layout

end Dialect

/-- How entries of one shape are converted. -/
structure Converter (α : Type) where
  layout : Layout
  convert : α → Extract Outcome
  /-- The entry as diagnostics show it. -/
  render : α → Text

namespace Converter

def ofEntries (layout : Layout) (convert : Text → Extract Outcome) : Converter Text :=
  ⟨layout, convert, id⟩

def ofEvents (layout : Layout) (convert : Json → Extract Outcome) : Converter Text :=
  ⟨layout, fun line => AuditEvent.readLine line >>= convert, id⟩

def ofRows (layout : Layout) (convert : Row → Extract Outcome) : Converter Row :=
  ⟨layout, convert, Row.render⟩

end Converter
end ReplayLog
