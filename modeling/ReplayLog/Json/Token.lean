import ReplayLog.Json.Value

/-! # JSON tokens

A text is scanned into brackets, separators, texts and scalars. A place where scanning fails becomes
a token too, because which fault is reported depends on whether a value could have stood there. -/
namespace ReplayLog.Json

/-- A token of JSON text. -/
inductive Token
  | openArray
  | closeArray
  | openObject
  | closeObject
  | comma
  | colon
  /-- A text between quotes, with its escapes resolved. -/
  | text (t : Text)
  /-- A number, `true`, `false` or `null`. -/
  | scalar (v : Json)
  /-- The end of what could be scanned; `inText` if a text was begun. -/
  | broken (inText : Bool) (fault : Fault)

namespace Token

def hexValue? (c : Char) : Option Nat :=
  if c.isDigit then some (c.toNat - 48)
  else if 'a' ≤ c && c ≤ 'f' then some (c.toNat - 87)
  else if 'A' ≤ c && c ≤ 'F' then some (c.toNat - 55)
  else none

/-- Four hexadecimal digits as a number. Fewer than four octets to the end of the text count as an
early end, whatever they are. -/
def scanHex (t : Text) : Except Fault (Nat × Text) :=
  if Text.byteSize (t.take 4) < 4 then .error .endOfText
  else match t with
    | a :: b :: c :: d :: rest =>
      match hexValue? a, hexValue? b, hexValue? c, hexValue? d with
      | some a, some b, some c, some d => .ok (((a * 16 + b) * 16 + c) * 16 + d, rest)
      | _, _, _, _ => .error .malformed
    | _ => .error .malformed

def shortEscape? : Char → Option Char
  | '"' => some '"'
  | '\\' => some '\\'
  | '/' => some '/'
  | 'b' => some '\x08'
  | 'f' => some '\x0c'
  | 'n' => some '\n'
  | 'r' => some '\r'
  | 't' => some '\t'
  | _ => none

/-- The second half of a pair of surrogates, behind a first half. -/
def scanSecondHalf (first : Nat) : Text → Except Fault (Char × Text)
  | [] => .error .endOfText
  | ['\\'] => .error .endOfText
  | '\\' :: 'u' :: t => do
    let (second, rest) ← scanHex t
    if 0xDC00 ≤ second ∧ second ≤ 0xDFFF then
      return (Char.ofNat (0x10000 + (first - 0xD800) * 0x400 + (second - 0xDC00)), rest)
    else throw .malformed
  | _ => .error .malformed

/-- The character of an escape by code point, behind its letter. Halves of surrogate pairs stand
for a character only together. -/
def scanCodePoint (t : Text) : Except Fault (Char × Text) := do
  let (n, rest) ← scanHex t
  if n < 0xD800 ∨ 0xDFFF < n then return (Char.ofNat n, rest)
  else if n < 0xDC00 then scanSecondHalf n rest
  else throw .malformed

/-- The character that an escape stands for, behind its backslash. -/
def scanEscape : Text → Except Fault (Char × Text)
  | [] => .error .endOfText
  | 'u' :: t => scanCodePoint t
  | c :: t => match shortEscape? c with
    | some e => .ok (e, t)
    | none => .error .malformed

theorem length_le_of_scanHex {t rest : Text} {n : Nat} (h : scanHex t = .ok (n, rest)) :
    rest.length ≤ t.length := by
  unfold scanHex at h
  split at h
  · cases h
  · split at h
    · split at h <;> cases h
      simp only [List.length_cons]
      omega
    · cases h

theorem length_le_of_scanSecondHalf {first : Nat} {t rest : Text} {c : Char}
    (h : scanSecondHalf first t = .ok (c, rest)) : rest.length ≤ t.length := by
  unfold scanSecondHalf at h
  split at h
  · cases h
  · cases h
  · next t =>
    cases hx : scanHex t with
    | error e => simp [hx, bind, Except.bind] at h
    | ok p =>
      have := @length_le_of_scanHex t p.2 p.1 hx
      simp only [hx, bind, Except.bind] at h
      split at h
      · obtain ⟨_, rfl⟩ := Prod.mk.inj (Except.ok.inj h)
        simp only [List.length_cons]
        omega
      · cases h
  · cases h

theorem length_le_of_scanCodePoint {t rest : Text} {c : Char}
    (h : scanCodePoint t = .ok (c, rest)) : rest.length ≤ t.length := by
  unfold scanCodePoint at h
  cases hx : scanHex t with
  | error e => simp [hx, bind, Except.bind] at h
  | ok p =>
    have hp := @length_le_of_scanHex t p.2 p.1 hx
    simp only [hx, bind, Except.bind] at h
    split at h
    · cases h
      exact hp
    · split at h
      · exact Nat.le_trans (length_le_of_scanSecondHalf h) hp
      · cases h

theorem length_le_of_scanEscape {t rest : Text} {c : Char} (h : scanEscape t = .ok (c, rest)) :
    rest.length ≤ t.length := by
  unfold scanEscape at h
  split at h
  · cases h
  · exact Nat.le_succ_of_le (length_le_of_scanCodePoint h)
  · split at h <;> cases h
    simp

/-- A text up to its closing quote, behind the characters (in reverse) already read. -/
def scanText (seen : Text) (t : Text) : Except Fault (Text × Text) :=
  match t with
  | [] => .error .endOfText
  | c :: t =>
    if c == '"' then .ok (seen.reverse, t)
    else if c == '\\' then
      match _h : scanEscape t with
      | .ok (e, rest) => scanText (e :: seen) rest
      | .error fault => .error fault
    else if c.toNat < 0x20 then .error .malformed
    else scanText (c :: seen) t
termination_by t.length
decreasing_by
  · exact Nat.lt_succ_of_le (length_le_of_scanEscape _h)
  · simp

theorem length_le_of_scanText {seen t u rest : Text} (h : scanText seen t = .ok (u, rest)) :
    rest.length ≤ t.length := by
  fun_induction scanText seen t with
  | case1 => cases h
  | case2 => cases h; simp
  | case3 seen c t _ _ e rest' he ih =>
    have := ih h
    have := length_le_of_scanEscape he
    simp only [List.length_cons]
    omega
  | case4 => cases h
  | case5 => cases h
  | case6 seen c t _ _ _ ih => exact Nat.le_succ_of_le (ih h)

/-- A word that must be spelled out to its end. -/
def scanWord (v : Json) : (word : Text) → Text → Except Fault (Json × Text)
  | [], t => .ok (v, t)
  | _ :: _, [] => .error .endOfText
  | w :: word, c :: t => if c == w then scanWord v word t else .error .malformed

theorem length_le_of_scanWord {v u : Json} {word t rest : Text}
    (h : scanWord v word t = .ok (u, rest)) : rest.length ≤ t.length := by
  fun_induction scanWord v word t with
  | case1 => cases h; exact Nat.le_refl _
  | case2 => cases h
  | case3 w word c t _ ih => exact Nat.le_succ_of_le (ih h)
  | case4 => cases h

def scanNumber (t : Text) : Except Fault (Json × Text) := do
  let (written, rest) ← Number.scan t
  return (number (← Number.value written), rest)

theorem length_lt_of_scanNumber {t rest : Text} {v : Json} (h : scanNumber t = .ok (v, rest)) :
    rest.length < t.length := by
  unfold scanNumber at h
  cases hs : Number.scan t with
  | error e => simp [hs, bind, Except.bind] at h
  | ok p =>
    cases hv : Number.value p.1 with
    | error e => simp [hs, hv, bind, Except.bind] at h
    | ok n =>
      simp only [hs, hv, bind, Except.bind] at h
      cases h
      exact Number.length_lt_of_scan hs

/-- Whether the character separates tokens and is none. -/
def isSpace (c : Char) : Bool := c == ' ' || c == '\n' || c == '\t' || c == '\r'

/-- A token and what follows it; nothing follows a broken token. -/
def ofScan {α : Type} (inText : Bool) (token : α → Token) : Except Fault (α × Text) → Token × Text
  | .ok (a, rest) => (token a, rest)
  | .error fault => (broken inText fault, [])

/-- The token that begins with the character, and what follows it. -/
def first (c : Char) (t : Text) : Token × Text :=
  match c with
  | '[' => (openArray, t)
  | ']' => (closeArray, t)
  | '{' => (openObject, t)
  | '}' => (closeObject, t)
  | ',' => (comma, t)
  | ':' => (colon, t)
  | '"' => ofScan true text (scanText [] t)
  | 't' => ofScan false scalar (scanWord (bool true) "rue".toList t)
  | 'f' => ofScan false scalar (scanWord (bool false) "alse".toList t)
  | 'n' => ofScan false scalar (scanWord null "ull".toList t)
  | c => ofScan false scalar (scanNumber (c :: t))

theorem length_ofScan_le {α : Type} {inText : Bool} {token : α → Token} {n : Nat}
    {r : Except Fault (α × Text)} (h : ∀ a rest, r = .ok (a, rest) → rest.length ≤ n) :
    (ofScan inText token r).2.length ≤ n := by
  unfold ofScan
  split
  · exact h _ _ rfl
  · simp

/-- A token takes its first character at least. -/
theorem length_first_le (c : Char) (t : Text) : (first c t).2.length ≤ t.length := by
  unfold first
  split
  case h_11 c =>
    refine length_ofScan_le fun v rest h => ?_
    have := length_lt_of_scanNumber h
    simpa using Nat.le_of_lt_succ this
  all_goals first
    | exact Nat.le_refl _
    | exact length_ofScan_le fun _ _ h => length_le_of_scanText h
    | exact length_ofScan_le fun _ _ h => length_le_of_scanWord h

/-- The tokens of a text; the last one may be broken. -/
def scan (t : Text) : List Token :=
  match t with
  | [] => []
  | c :: t => if isSpace c then scan t else (first c t).1 :: scan (first c t).2
termination_by t.length
decreasing_by
  · simp
  · exact Nat.lt_succ_of_le (length_first_le c t)

end Token
end ReplayLog.Json
