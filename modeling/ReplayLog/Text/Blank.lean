import ReplayLog.Text.Basic

/-! # Blank characters

A character is blank when it has the Unicode property White_Space. Trimming removes blank
characters from the ends of a text and nothing else. -/
namespace ReplayLog

/-- Whether the character has the Unicode property White_Space. -/
def isBlank (c : Char) : Bool :=
  let n := c.toNat
  (0x09 ≤ n && n ≤ 0x0D) || n == 0x20 || n == 0x85 || n == 0xA0 || n == 0x1680 ||
    (0x2000 ≤ n && n ≤ 0x200A) || n == 0x2028 || n == 0x2029 || n == 0x202F || n == 0x205F ||
    n == 0x3000

namespace Text

/-- The text without the blank characters at its start. -/
def trimStart (t : Text) : Text := t.dropWhile isBlank

/-- The text without the blank characters at its end. -/
def trimEnd (t : Text) : Text := (t.reverse.dropWhile isBlank).reverse

/-- The text without the blank characters at its two ends. -/
def trim (t : Text) : Text := t.trimStart.trimEnd

/-- Whether nothing is left of the text once it is trimmed. -/
def isBlankText (t : Text) : Bool := t.all isBlank

end Text
end ReplayLog
