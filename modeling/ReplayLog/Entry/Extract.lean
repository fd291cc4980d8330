import ReplayLog.Entry.Fault

/-! # Reading the parts of an entry

What the dialects share: the fault of too few pieces, and reading numbers and stamps out of pieces of
an entry. -/
namespace ReplayLog

def PieceRule.fail {α : Type} (rule : PieceRule) (pieces : List Text) : Extract α :=
  Extract.fail (.missingPiece rule pieces.length)

namespace Extract

/-- The integer that a text writes, blanks around it apart. -/
def integer (name text : Text) : Extract Int :=
  (Integer.read .int64 text.trim).mapError fun cause => .fault (.integer name text cause)

/-- The microseconds of a number of milliseconds. -/
def millis (name text : Text) : Extract Int := do
  let ms ← integer name text
  (Span.int64.multiply ms 1000).mapError .overflow

/-- A decimal in thousandths, blanks around it apart. -/
def thousandths (name text : Text) : Extract Int :=
  match Decimal.read text.trim with
  | .ok d => .ok d.thousandths
  | .error cause => fail (.decimal name text cause)

def stamp (form : StampForm) (zone : Zone) (text : Text) : Extract Int :=
  (Stamp.read form zone text).mapError fun f => .fault (.stamp f)

end Extract

namespace Pattern

/-- A run of blanks. -/
def blanks : Pattern := ⟨isBlank, [.run isBlank]⟩

def char (c : Char) : Pattern := ofChar c []

/-- The patterns of a comma and an equals sign, which part names and values. -/
def keyValue : List Pattern := [char ',', char '=']

end Pattern
end ReplayLog
