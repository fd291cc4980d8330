import ReplayLog.Proofs.JsonRoundTrip
import ReplayLog.Proofs.StoredRecords

/-! # Lines of records

The line of a record is one JSON object on one line. It is read back as the members that the layout
shows: its fields without repetitions, except those that the policies leave out, each with the value
that the record has for it. -/
namespace ReplayLog

namespace Field

/-- What a record has for a field; a missing text counts as an empty one. -/
def value (r : Record) : Field → Json
  | statement => .text r.statement
  | startTime => .number (.integer r.startTime)
  | session => .text r.session
  | execTime => .number (.integer r.execTime)
  | schema => .text r.schema
  | user => .text (r.user.getD [])
  | parameter => .text (r.parameter.getD [])

def member (r : Record) (f : Field) : Text × Json := (f.key.toList, f.value r)

theorem key_injective : Function.Injective fun f : Field => f.key.toList := by
  intro f g h
  cases f <;> cases g <;> first | rfl | exact absurd h (by decide)

theorem not_control_of_mem_print_value {r : Record} {f : Field} {x : Char}
    (h : x ∈ (f.value r).print) : 0x20 ≤ x.toNat := by
  cases f with
  | startTime | execTime => exact Json.not_control_of_mem_print_integer h
  | _ =>
    rw [value, Json.print] at h
    exact Json.not_control_of_mem_printText h

end Field

namespace Layout

def leavesOut (l : Layout) (r : Record) : Field → Bool
  | .user => l.user = .omit
  | .parameter => l.parameter = .never ∨
      l.parameter = .whenPresent ∧ (r.parameter = none ∨ r.parameter = some [])
  | _ => false

def shown (l : Layout) (r : Record) : List Field := l.fields.eraseDups.filter (!l.leavesOut r ·)

variable {l : Layout} {r : Record}

theorem value?_eq (l : Layout) (r : Record) (f : Field) :
    l.value? r f = if l.leavesOut r f then none else some (f.value r) := by
  cases f with
  | user =>
    rw [value?, leavesOut]
    cases l.user <;> rfl
  | parameter =>
    rw [value?, leavesOut]
    cases l.parameter with
    | never => rfl
    | always => rfl
    | whenPresent =>
      rcases hparameter : r.parameter with _ | (_ | ⟨c, t⟩)
      · rfl
      · rfl
      · simp [Field.value, hparameter]
  | _ => rfl

/-- Setting a member once more to what it is changes nothing. -/
theorem put_of_mem {fields : List Field} {f : Field} (hf : f ∈ fields) :
    Json.Members.put f.key.toList (f.value r) (fields.map (·.member r)) =
      fields.map (·.member r) := by
  induction fields with
  | nil => exact absurd hf List.not_mem_nil
  | cons g fields ih =>
    rw [List.map_cons, Field.member, Json.Members.put]
    split
    · next hkey => rw [Field.key_injective hkey]
    · next hkey =>
      rcases List.mem_cons.1 hf with rfl | hf
      · exact absurd rfl hkey
      · rw [ih hf]

theorem key_not_mem {fields : List Field} {f : Field} (hf : f ∉ fields) :
    f.key.toList ∉ (fields.map (·.member r)).map Prod.fst := by
  rw [List.map_map, List.mem_map]
  rintro ⟨g, hg, hkey⟩
  exact hf (Field.key_injective hkey ▸ hg)

theorem eraseDups_concat (fields : List Field) (f : Field) :
    (fields ++ [f]).eraseDups = fields.eraseDups ++ if f ∈ fields then [] else [f] := by
  rw [List.eraseDups_append, List.removeAll, List.filter_singleton, List.elem_eq_mem]
  by_cases hf : f ∈ fields
  · rw [if_pos hf, decide_eq_true hf]
    rfl
  · rw [if_neg hf, decide_eq_false hf]
    rfl

/-- The members of a record's line are those of the fields shown, each field once. -/
theorem members_eq (l : Layout) (r : Record) : l.members r = (l.shown r).map (·.member r) := by
  rw [members, shown]
  induction l.fields using List.reverseRecOn with
  | nil => rfl
  | append_singleton fields f ih =>
    have hmem (g : Field) : g ∈ fields.eraseDups.filter (!l.leavesOut r ·) ↔
        g ∈ fields ∧ l.leavesOut r g = false := by
      rw [List.mem_filter, List.mem_eraseDups, Bool.not_eq_true']
    rw [List.foldl_append, ih, List.foldl_cons, List.foldl_nil, addField, value?_eq,
      eraseDups_concat, List.filter_append, List.map_append]
    cases hout : l.leavesOut r f with
    | true =>
      have hnone : (if f ∈ fields then [] else [f]).filter (!l.leavesOut r ·) = [] := by
        split
        · rfl
        · rw [List.filter_singleton, hout]
          rfl
      rw [hnone, List.map_nil, List.append_nil]
      rfl
    | false =>
      by_cases hf : f ∈ fields
      · rw [if_pos hf, List.filter_nil, List.map_nil, List.append_nil]
        exact put_of_mem ((hmem f).2 ⟨hf, hout⟩)
      · have hnew : f ∉ fields.eraseDups.filter (!l.leavesOut r ·) := fun h => hf ((hmem f).1 h).1
        rw [if_neg hf, List.filter_singleton, hout]
        exact Json.Members.put_of_not_mem (key_not_mem hnew) _

/-- The line of a record has no line feed in it. -/
theorem lineFeed_not_mem_line (l : Layout) (r : Record) : '\n' ∉ l.line r := by
  rw [line, members_eq]
  apply Json.lineFeed_not_mem_print_object
  intro m hm x hx
  obtain ⟨f, -, rfl⟩ := List.mem_map.1 hm
  exact Field.not_control_of_mem_print_value hx

end Layout

namespace Writer

end Writer
end ReplayLog
