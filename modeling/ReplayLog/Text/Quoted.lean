import ReplayLog.Text.Printable

/-! # Quoted values

A diagnostic shows a value between double quotes, with every character that would not be seen as
itself written as an escape. -/
namespace ReplayLog.Quoted

/-- Hexadecimal digits of a number in lower case, without leading zeros. -/
def hexDigits (n : Nat) : Text := Nat.toDigits 16 n

/-- The written form of one character: a short escape for the quote, the backslash and four control
characters, the code point in braces for all else that is not seen as itself. -/
def escape (c : Char) : Text :=
  if c == '"' then ['\\', '"']
  else if c == '\\' then ['\\', '\\']
  else if c == '\n' then ['\\', 'n']
  else if c == '\r' then ['\\', 'r']
  else if c == '\t' then ['\\', 't']
  else if c == '\x00' then ['\\', '0']
  else if isPrintable c && !isCombining c then [c]
  else ['\\', 'u', '\x7b'] ++ hexDigits c.toNat ++ ['\x7d']

def quote (t : Text) : Text := '"' :: t.flatMap escape ++ ['"']

end ReplayLog.Quoted
