import ReplayLog.Text.DecimalDigit

/-! # Patterns and cuts

A pattern is a first character followed by steps, each of which takes one character of a class or
the longest run of a class. No pattern used here needs to give characters back, so following it is
one pass from left to right. A text is cut at every leftmost match of one of several patterns, and
the pieces before, between and after the matches are kept, empty ones too. -/
namespace ReplayLog

/-- A step of a pattern: one character of a class, or the longest run of a class. -/
inductive Step
  | one (p : Char → Bool)
  | run (p : Char → Bool)

/-- A pattern takes one character of its first class and then follows its steps. -/
structure Pattern where
  first : Char → Bool
  steps : List Step

namespace Step

/-- What is left of the text after the steps, if they all apply. -/
def follow : List Step → Text → Option Text
  | [], t => some t
  | one p :: steps, c :: t => if p c then follow steps t else none
  | one _ :: _, [] => none
  | run p :: steps, t => follow steps (t.dropWhile p)

/-- Steps never lengthen what is left. -/
theorem length_le_of_follow {steps : List Step} {t rest : Text}
    (h : follow steps t = some rest) : rest.length ≤ t.length := by
  fun_induction follow steps t with
  | case1 t => simp_all
  | case2 p steps c t hp ih => exact Nat.le_succ_of_le (ih h)
  | case3 => simp at h
  | case4 => simp at h
  | case5 p steps t ih => exact Nat.le_trans (ih h) (t.dropWhile_sublist p).length_le

def literal (s : String) : List Step := s.toList.map fun c => one (· == c)

def digits (n : Nat) : List Step := List.replicate n (one isDecimalDigit)

end Step

namespace Pattern

def ofChar (c : Char) (steps : List Step) : Pattern := ⟨(· == c), steps⟩

/-- What is left of the text after the pattern, if it matches at the start of the text. -/
def rest? (p : Pattern) : Text → Option Text
  | [] => none
  | c :: t => if p.first c then Step.follow p.steps t else none

/-- Whether the pattern matches at the start of the text. -/
def opens (p : Pattern) (t : Text) : Bool := (p.rest? t).isSome

/-- A match takes at least one character. -/
theorem length_lt_of_rest? {p : Pattern} {t rest : Text} (h : p.rest? t = some rest) :
    rest.length < t.length := by
  cases t with
  | nil => simp [rest?] at h
  | cons c t =>
    simp only [rest?] at h
    split at h
    · exact Nat.lt_succ_of_le (Step.length_le_of_follow h)
    · simp at h

/-- What is left of the text after the first of several patterns that matches at its start. -/
def restOfAny? (ps : List Pattern) (t : Text) : Option Text := ps.findSome? (·.rest? t)

theorem length_lt_of_restOfAny? {ps : List Pattern} {t rest : Text}
    (h : restOfAny? ps t = some rest) : rest.length < t.length := by
  obtain ⟨p, _, hp⟩ := List.exists_of_findSome?_eq_some h
  exact length_lt_of_rest? hp

/-- The pieces of the text around the matches, when the piece at hand began with the given
characters (in reverse). -/
def cutFrom (ps : List Pattern) (piece : Text) (t : Text) : List Text :=
  match _h : restOfAny? ps t with
  | some rest => piece.reverse :: cutFrom ps [] rest
  | none =>
    match t with
    | [] => [piece.reverse]
    | c :: t => cutFrom ps (c :: piece) t
termination_by t.length
decreasing_by
  · exact length_lt_of_restOfAny? _h
  · simp

/-- The pieces of the text before, between and after the leftmost matches of the patterns. -/
def cut (ps : List Pattern) (t : Text) : List Text := cutFrom ps [] t

theorem cutFrom_ne_nil (ps : List Pattern) (piece t : Text) : cutFrom ps piece t ≠ [] := by
  fun_induction cutFrom ps piece t <;> simp_all

/-- A cut leaves at least one piece, the whole text if nothing matches. -/
theorem length_cut_pos (ps : List Pattern) (t : Text) : 0 < (cut ps t).length :=
  List.length_pos_iff.2 (cutFrom_ne_nil ps [] t)

end Pattern
end ReplayLog
