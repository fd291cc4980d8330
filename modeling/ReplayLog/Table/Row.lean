import ReplayLog.Source.Lines
import ReplayLog.Table.Grammar
import ReplayLog.Table.LeadingSpace
import ReplayLog.Text.Blank
import ReplayLog.Text.Quoted

/-! # Rows under a header

The first row of a table names its columns. The names lose the blanks at their end; a column without
a name is skipped, and of two columns with one name the later one counts. A row may be longer or
shorter than the header: what has no partner is left out and not even decoded. -/
namespace ReplayLog

/-- The values of a row by column name, no name twice. -/
abbrev Row := List (Text × Text)

namespace Row

def put (name value : Text) : Row → Row
  | [] => [(name, value)]
  | (n, v) :: row => if n = name then (n, value) :: row else (n, v) :: put name value row

def find? (row : Row) (name : Text) : Option Text :=
  (List.find? (fun cell => cell.1 == name) row).map (·.2)

/-- The value of a column that the row must have. -/
def get (row : Row) (name : Text) : Except EntryFault Text :=
  match row.find? name with
  | some value => .ok value
  | none => .error (.missingField name)

/-- The row as diagnostics show it: names with quoted values in the order of the names. -/
def render (row : Row) : Text :=
  let sorted := row.mergeSort fun a b => a.1.precedes b.1
  [',', ' '].intercalate (sorted.map fun (name, value) => name ++ '=' :: Quoted.quote value)

end Row

/-- A table whose header was read. -/
structure Table where
  encoding : Encoding
  columns : List Text
  rows : List Table.RawRow
  /-- The words of a failure behind the rows. -/
  failure : Option String

namespace Table

/-- Number of bytes that the grammar asks for at a time. -/
def readSize : Nat := 8192

/-- Decodes bytes; a fault in them is a fault of the source. -/
def decode (e : Encoding) (bs : List UInt8) : Except RunFault Text :=
  (e.decode bs).mapError fun f => .read (.notUtf8 f)

/-- Reads a table up to its header. A table without any row has no columns. -/
def ofSource (e : Encoding) (b : BufferedSource) : Except RunFault Table :=
  let (reads, stopped) := (LeadingSpace.Sieve.ofSource b).drain readSize
  let (bs, failure) := content stopped reads
  match rawRows bs failure.isNone, failure with
  | [], some reason => .error (.malformed 1 "<header>".toList (.table reason))
  | [], none => .ok ⟨e, [], [], none⟩
  | header :: rows, failure => do
    let names ← header.fields.mapM (decode e)
    return ⟨e, names.map Text.trimEnd, rows, failure⟩

def addCell (e : Encoding) (row : Row) (cell : Text × List UInt8) : Except RunFault Row :=
  if cell.1.isEmpty then .ok row else (decode e cell.2).map fun value => row.put cell.1 value

def decodeRow (t : Table) (r : RawRow) : Except RunFault Row :=
  (t.columns.zip r.fields).foldlM (addCell t.encoding) []

/-- The rows with their lines, each of them read or failed. -/
def items (t : Table) : List (Except RunFault (Nat × Row)) :=
  t.rows.map (fun r => (t.decodeRow r).map fun row => (r.line, row)) ++
    match t.failure with
    | some reason => [.error (.malformed 0 [] (.table reason))]
    | none => []

end Table
end ReplayLog
