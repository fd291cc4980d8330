import ReplayLog.Json.Number

/-! # JSON values

The members of an object keep the order in which their names first came; a later member of the same
name takes the place and the value over. -/
namespace ReplayLog

/-- A JSON value. -/
inductive Json
  | null
  | bool (b : Bool)
  | number (n : Json.Number)
  | text (t : Text)
  | array (items : List Json)
  | object (members : List (Text × Json))

namespace Json

abbrev Members := List (Text × Json)

namespace Members

/-- Sets the member of a name, in its place if there is one and else at the end. -/
def put (name : Text) (v : Json) : Members → Members
  | [] => [(name, v)]
  | (n, w) :: members => if n = name then (n, v) :: members else (n, w) :: put name v members

def find? (members : Members) (name : Text) : Option Json :=
  (List.find? (fun m => m.1 == name) members).map (·.2)

end Members

def kindName : Json → String
  | null => "null"
  | bool _ => "boolean"
  | number _ => "number"
  | text _ => "string"
  | array _ => "array"
  | object _ => "object"

end Json
end ReplayLog
