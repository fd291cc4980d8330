/-! # The grammar of tables

A table is a sequence of rows of fields. A field is quoted if its first byte is a quote; inside
quotes a doubled quote is one quote and every other byte stands for itself, and what follows the
closing quote is appended as it is. Outside quotes a comma ends the field, and a carriage return or a
line feed ends the row. Before each row all carriage returns and line feeds are skipped. The end of
the bytes ends the last row, also inside quotes. A mark of UTF-8 in front does not belong to it. -/
namespace ReplayLog.Table

/-- A row before its fields are decoded. -/
structure RawRow where
  /-- One more than the number of line feeds before the ones skipped in front of the row. -/
  line : Nat
  fields : List (List UInt8)
  deriving DecidableEq, Repr

/-- Where in a row the reading stands. -/
inductive Position
  | rowStart
  | fieldStart
  | bare
  | quoted
  | quoteInQuoted
  deriving DecidableEq, Repr

/-- The state between two bytes. -/
structure Reading where
  position : Position
  /-- The bytes of the field so far, in reverse. -/
  field : List UInt8
  /-- The fields of the row so far, in reverse. -/
  fields : List (List UInt8)
  /-- Number of line feeds so far. -/
  lineFeeds : Nat
  /-- The line of the row at hand. -/
  line : Nat
  rows : Array RawRow

namespace Reading

/-- The state before the first byte. -/
def start : Reading := ⟨.rowStart, [], [], 0, 1, #[]⟩

def push (r : Reading) (position : Position) (b : UInt8) : Reading :=
  { r with position := position, field := b :: r.field }

def endField (r : Reading) : Reading :=
  { r with position := .fieldStart, field := [], fields := r.field.reverse :: r.fields }

def endRow (r : Reading) : Reading :=
  { r with
    position := .rowStart
    field := []
    fields := []
    line := r.lineFeeds + 1
    rows := r.rows.push ⟨r.line, (r.field.reverse :: r.fields).reverse⟩ }

/-- Whether the byte ends a row outside quotes. -/
def isRowEnd (b : UInt8) : Bool := b == 0x0D || b == 0x0A

/-- Takes a byte outside quotes that does not open a quoted field. -/
def stepUnquoted (r : Reading) (b : UInt8) : Reading :=
  if b == 0x2C then r.endField else if isRowEnd b then r.endRow else r.push .bare b

def step (r : Reading) (b : UInt8) : Reading :=
  let r := if b == 0x0A then { r with lineFeeds := r.lineFeeds + 1 } else r
  match r.position with
  | .rowStart =>
    if isRowEnd b then r else if b == 0x22 then { r with position := .quoted } else r.stepUnquoted b
  | .fieldStart => if b == 0x22 then { r with position := .quoted } else r.stepUnquoted b
  | .bare => r.stepUnquoted b
  | .quoted => if b == 0x22 then { r with position := .quoteInQuoted } else r.push .quoted b
  | .quoteInQuoted => if b == 0x22 then r.push .quoted b else r.stepUnquoted b

def finish (r : Reading) : Reading := if r.position = .rowStart then r else r.endRow

end Reading

/-- The mark of UTF-8 that may stand in front of a table. -/
def mark : List UInt8 := [0xEF, 0xBB, 0xBF]

/-- The bytes of a table that comes in such reads, none of them empty, and the words of the failure
behind them. The mark is seen only if the first read holds it whole; a first read of nothing but the
mark is taken for the end. -/
def content (failure : Option String) : List (List UInt8) → List UInt8 × Option String
  | [] => ([], failure)
  | first :: reads =>
    if first = mark then ([], none)
    else
      let start := if mark.isPrefixOf first then first.drop mark.length else first
      (start ++ reads.flatten, failure)

/-- The rows completed by the bytes; with the end of the bytes in view, the last one is complete. -/
def rawRows (bs : List UInt8) (ended : Bool) : List RawRow :=
  let r := bs.foldl Reading.step Reading.start
  (if ended then r.finish else r).rows.toList

end ReplayLog.Table
