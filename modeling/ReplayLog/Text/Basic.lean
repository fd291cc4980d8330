/-! # Texts

A text is the list of its characters, and the bytes of a source are a list of octets. This module
holds the measures and joins that every other module uses. -/
namespace ReplayLog

abbrev Text := List Char

namespace Text

/-- Number of octets of the text in UTF-8. -/
def byteSize (t : Text) : Nat := t.foldl (fun n c => n + c.utf8Size) 0

private theorem foldl_utf8Size (t : Text) (n : Nat) :
    t.foldl (fun n c => n + c.utf8Size) n = n + byteSize t := by
  induction t generalizing n with
  | nil => rfl
  | cons c t ih =>
    simp only [byteSize, List.foldl_cons]
    rw [ih, ih (0 + c.utf8Size)]
    omega

@[simp] theorem byteSize_nil : byteSize [] = 0 := rfl

@[simp] theorem byteSize_cons (c : Char) (t : Text) :
    byteSize (c :: t) = c.utf8Size + byteSize t := by
  rw [byteSize, List.foldl_cons, foldl_utf8Size, Nat.zero_add]

@[simp] theorem byteSize_append (s t : Text) : byteSize (s ++ t) = byteSize s + byteSize t := by
  rw [byteSize, List.foldl_append, foldl_utf8Size, ← byteSize]

def joinLines (lines : List Text) : Text := ['\n'].intercalate lines

@[simp] theorem joinLines_singleton (line : Text) : joinLines [line] = line := by
  simp [joinLines, List.intercalate]

/-- One more line at the end is joined by one more line feed. -/
theorem joinLines_concat {lines : List Text} (h : lines ≠ []) (line : Text) :
    joinLines (lines ++ [line]) = joinLines lines ++ '\n' :: line := by
  induction lines with
  | nil => exact absurd rfl h
  | cons first lines ih =>
    cases lines with
    | nil => simp [joinLines, List.intercalate]
    | cons second lines =>
      have := ih (by simp)
      simp only [joinLines, List.intercalate, List.cons_append, List.intersperse_cons_cons,
        List.flatten_cons, List.append_assoc] at this ⊢
      rw [this]

/-- The octets of a text in UTF-8. -/
def toUtf8 (t : Text) : List UInt8 := t.flatMap String.utf8EncodeChar

@[simp] theorem toUtf8_nil : toUtf8 [] = [] := rfl

theorem toUtf8_cons (c : Char) (t : Text) : toUtf8 (c :: t) = String.utf8EncodeChar c ++ toUtf8 t :=
  rfl

@[simp] theorem toUtf8_append (s t : Text) : toUtf8 (s ++ t) = toUtf8 s ++ toUtf8 t := by
  simp [toUtf8]

/-- Equality of two texts when the case of ASCII letters does not count. -/
def sameIgnoringCase (s t : Text) : Bool := s.map Char.toLower == t.map Char.toLower

/-- Whether the first text does not come after the second one in the order of code points. -/
def precedes : Text → Text → Bool
  | [], _ => true
  | _ :: _, [] => false
  | a :: s, b :: t => a.toNat < b.toNat || (a == b && precedes s t)

/-- Whether the text ends in the given text. -/
def endsWith (t ending : Text) : Bool := ending.isSuffixOf t

end Text
end ReplayLog
