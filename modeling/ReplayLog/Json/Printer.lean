import ReplayLog.Json.Value

/-! # Printing JSON

Values are printed without any space. Inside a text only the quote, the backslash and the control
characters below U+0020 are escaped; every other character stands for itself. -/
namespace ReplayLog.Json

def shortEscapeLetter? (c : Char) : Option Char :=
  if c == '"' then some '"'
  else if c == '\\' then some '\\'
  else if c == '\x08' then some 'b'
  else if c == '\x0c' then some 'f'
  else if c == '\n' then some 'n'
  else if c == '\r' then some 'r'
  else if c == '\t' then some 't'
  else none

def escape (c : Char) : Text :=
  match shortEscapeLetter? c with
  | some letter => ['\\', letter]
  | none =>
    if c.toNat < 0x20 then
      ['\\', 'u', '0', '0', Nat.digitChar (c.toNat / 16), Nat.digitChar (c.toNat % 16)]
    else [c]

def printText (t : Text) : Text := '"' :: t.flatMap escape ++ ['"']

mutual

def print : Json → Text
  | null => "null".toList
  | bool b => (if b then "true" else "false").toList
  | number n => n.print
  | text t => printText t
  | array items => '[' :: [','].intercalate (printItems items) ++ [']']
  | object members => '\x7b' :: [','].intercalate (printMembers members) ++ ['\x7d']

def printItems : List Json → List Text
  | [] => []
  | v :: items => print v :: printItems items

def printMembers : List (Text × Json) → List Text
  | [] => []
  | (name, v) :: members => (printText name ++ ':' :: print v) :: printMembers members

end

end ReplayLog.Json
