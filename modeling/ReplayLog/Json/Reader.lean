import ReplayLog.Json.Token
import ReplayLog.Text.Blank

/-! # Reading JSON

Tokens are taken one by one, and the place reached so far says which of them may follow. The open
arrays and objects around the place form a stack of at most 127 frames. -/
namespace ReplayLog.Json

/-- An open array or object that waits for a value. -/
inductive Frame
  /-- An array with its items so far, in reverse. -/
  | array (items : List Json)
  /-- An object with its members so far and the name of the value to come. -/
  | object (members : Members) (name : Text)

/-- A place between two tokens, with the open arrays and objects around it. -/
inductive Place
  /-- Where a value must stand. -/
  | value (outer : List Frame)
  /-- Behind an opening square bracket. -/
  | arrayStart (outer : List Frame)
  /-- Behind an item of an array. -/
  | behindItem (items : List Json) (outer : List Frame)
  /-- Behind an opening brace. -/
  | objectStart (outer : List Frame)
  /-- Behind a comma in an object. -/
  | name (members : Members) (outer : List Frame)
  /-- Behind the name of a member. -/
  | behindName (members : Members) (name : Text) (outer : List Frame)
  /-- Behind the value of a member. -/
  | behindMember (members : Members) (outer : List Frame)
  /-- Behind the whole value. -/
  | behindAll (v : Json)

namespace Place

/-- The largest number of arrays and objects around a value. -/
def depthLimit : Nat := 127

/-- The place behind a finished value. -/
def close (v : Json) : List Frame → Place
  | [] => behindAll v
  | .array items :: outer => behindItem (v :: items) outer
  | .object members n :: outer => behindMember (members.put n v) outer

/-- The place behind an opening bracket, unless it is nested too deeply. -/
def nest (place : List Frame → Place) (outer : List Frame) : Except Fault Place :=
  if outer.length < depthLimit then .ok (place outer) else .error .malformed

/-- The place behind a token where a value must stand. -/
def stepValue (outer : List Frame) : Token → Except Fault Place
  | .text t => .ok (close (.text t) outer)
  | .scalar v => .ok (close v outer)
  | .openArray => nest arrayStart outer
  | .openObject => nest objectStart outer
  | .broken _ fault => .error fault
  | _ => .error .malformed

/-- The place behind a token where the name of a member must stand. -/
def stepName (members : Members) (outer : List Frame) : Token → Except Fault Place
  | .text t => .ok (behindName members t outer)
  | .broken true fault => .error fault
  | _ => .error .malformed

/-- The place behind a token. A broken token shows its own fault only where what it began could
stand; anywhere else it is as malformed as any other token. -/
def step : Place → Token → Except Fault Place
  | value outer, token => stepValue outer token
  | arrayStart outer, .closeArray => .ok (close (.array []) outer)
  | arrayStart outer, token => stepValue (.array [] :: outer) token
  | behindItem items outer, .comma => .ok (value (.array items :: outer))
  | behindItem items outer, .closeArray => .ok (close (.array items.reverse) outer)
  | objectStart outer, .closeObject => .ok (close (.object []) outer)
  | objectStart outer, token => stepName [] outer token
  | name members outer, token => stepName members outer token
  | behindName members n outer, .colon => .ok (value (.object members n :: outer))
  | behindMember members outer, .comma => .ok (name members outer)
  | behindMember members outer, .closeObject => .ok (close (.object members) outer)
  | _, _ => .error .malformed

/-- The value read, if the tokens may end here. -/
def finish : Place → Except Fault Json
  | behindAll v => .ok v
  | _ => .error .endOfText

end Place

/-- Reads a whole text as one value. -/
def read (t : Text) : Except Fault Json := do
  let place ← (Token.scan t).foldlM Place.step (.value [])
  place.finish

/-- Reads a line as one value; blank characters around it do not count. -/
def readLine (line : Text) : Except Fault Json := read line.trim

end ReplayLog.Json
