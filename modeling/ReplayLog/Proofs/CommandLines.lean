import Mathlib.Data.List.Basic
import ReplayLog.Cli.Arguments

/-! # Command lines

A command line spells a list of items, each of them a switch or an option with its value. Reading it
gives the items to the arguments one after the other, so what is read does not depend on the
spelling: either an item is refused, or the arguments hold all items and nothing else. -/
namespace ReplayLog.Cli

inductive Item
  | value (k : Key) (t : Text)
  | switch (s : Switch)
  deriving DecidableEq

namespace Arguments

/-- Spelling behind two dashes: a switch, or an option with or without its value. -/
inductive SpellsLong : List Item → (awaiting : Option Key) → Text → Prop
  | switch {name : Text} {s : Switch} (h : ofLongName? name = some (.switch s)) :
    SpellsLong [.switch s] none name
  | option {name : Text} {k : Key} (h : ofLongName? name = some (.key k)) :
    SpellsLong [] (some k) name
  | value {name : Text} {k : Key} (h : ofLongName? name = some (.key k)) (t : Text) :
    SpellsLong [.value k t] none (name ++ '=' :: t)

/-- Spelling behind one dash: switches run together, and perhaps an option behind them. -/
inductive SpellsLetters : List Item → (awaiting : Option Key) → Text → Prop
  | nil : SpellsLetters [] none []
  | switch {c : Char} {s : Switch} (h : ofLetter? c = some (.switch s)) {items : List Item}
    {awaiting : Option Key} {t : Text} (rest : SpellsLetters items awaiting t) :
    SpellsLetters (.switch s :: items) awaiting (c :: t)
  | option {c : Char} {k : Key} (h : ofLetter? c = some (.key k)) :
    SpellsLetters [] (some k) [c]
  | value {c : Char} {k : Key} (h : ofLetter? c = some (.key k)) {t : Text} (hne : t ≠ []) :
    SpellsLetters [.value k (attached t)] none (c :: t)

/-- Spelling with the arguments of a command line, the first of which may be awaited as a value. -/
inductive Spells : (awaiting : Option Key) → List Item → List Text → Prop
  | nil : Spells none [] []
  | dashes : Spells none [] [['-', '-']]
  | value {k : Key} {t : Text} (hfree : looksLikeOption t = true → takesAnything k = true)
    {items : List Item} {words : List Text} (rest : Spells none items words) :
    Spells (some k) (.value k t :: items) (t :: words)
  | long {items : List Item} {awaiting : Option Key} {t : Text}
    (first : SpellsLong items awaiting t) {more : List Item} {words : List Text}
    (rest : Spells awaiting more words) : Spells none (items ++ more) (('-' :: '-' :: t) :: words)
  | letters {items : List Item} {awaiting : Option Key} {c : Char} {t : Text}
    (first : SpellsLetters items awaiting (c :: t)) {more : List Item} {words : List Text}
    (rest : Spells awaiting more words) : Spells none (items ++ more) (('-' :: c :: t) :: words)

def give (a : Arguments) : Item → Except Stop Arguments
  | .value k t => a.set k t
  | .switch s => a.turnOn s

section Spelling

variable {items : List Item} {awaiting : Option Key} {t : Text}

/-- No long name is empty, and none contains an equals sign. -/
theorem ofLongName?_eq_some {name : Text} {n : Named} (h : ofLongName? name = some n) :
    name ≠ [] ∧ '=' ∉ name := by
  have hname : name = (String.ofList name).toList := String.toList_ofList.symm
  rw [ofLongName?] at h
  rw [hname]
  generalize String.ofList name = s at h
  split at h
  case h_13 => cases h
  all_goals decide

theorem takeWhile_of_name {name : Text} {n : Named} (h : ofLongName? name = some n)
    (value : Text) (hvalue : ∀ c, value.head? = some c → c = '=') :
    (name ++ value).takeWhile (· != '=') = name ∧ (name ++ value).drop name.length = value := by
  have hfree : ∀ c ∈ name, (c != '=') = true := by
    intro c hc
    rw [bne_iff_ne]
    rintro rfl
    exact (ofLongName?_eq_some h).2 hc
  refine ⟨?_, List.drop_left⟩
  rw [List.takeWhile_append_of_pos hfree]
  cases value with
  | nil => rw [List.takeWhile_nil, List.append_nil]
  | cons c value =>
    cases hvalue c rfl
    rw [List.takeWhile_cons_of_neg (by decide), List.append_nil]

theorem takeLong_of_spells (h : SpellsLong items awaiting t) (a : Arguments) :
    a.takeLong t = (items.foldlM give a).map fun a => (awaiting, a) := by
  cases h with
  | @switch name s h =>
    obtain ⟨hwhile, hdrop⟩ := takeWhile_of_name h [] nofun
    rw [List.append_nil] at hwhile hdrop
    simp only [takeLong, hwhile, h, hdrop]
    rw [List.foldlM_cons]
    simp only [List.foldlM_nil, bind_pure]
    rfl
  | @option name k h =>
    obtain ⟨hwhile, hdrop⟩ := takeWhile_of_name h [] nofun
    rw [List.append_nil] at hwhile hdrop
    simp only [takeLong, hwhile, h, hdrop]
    rfl
  | @value name k h t =>
    obtain ⟨hwhile, hdrop⟩ := takeWhile_of_name h ('=' :: t) (by simp)
    simp only [takeLong, hwhile, h, hdrop]
    rw [List.foldlM_cons]
    simp only [List.foldlM_nil, bind_pure]
    rfl

theorem takeLetters_of_spells (h : SpellsLetters items awaiting t) (a : Arguments) :
    a.takeLetters t = (items.foldlM give a).map fun a => (awaiting, a) := by
  induction h generalizing a with
  | nil => rfl
  | @switch c s h items awaiting t rest ih =>
    rw [takeLetters, h, List.foldlM_cons]
    change (a.turnOn s >>= fun a => a.takeLetters t) = _
    simp only [ih]
    change _ = Except.map _ (a.turnOn s >>= _)
    cases a.turnOn s <;> rfl
  | option h =>
    rw [takeLetters, h]
    rfl
  | @value c k h t hne =>
    rw [takeLetters, h, List.foldlM_cons]
    simp only [List.foldlM_nil, bind_pure]
    rw [if_neg (by simpa using hne)]
    rfl

theorem takeAll_long (a : Arguments) (ht : t ≠ []) (words : List Text) :
    a.takeAll none (('-' :: '-' :: t) :: words) =
      a.takeLong t >>= fun r => r.2.takeAll r.1 words := by
  cases t with
  | nil => exact absurd rfl ht
  | cons c t => rfl

theorem takeAll_letters (a : Arguments) {c : Char} (hc : c ≠ '-') (t : Text) (words : List Text) :
    a.takeAll none (('-' :: c :: t) :: words) =
      a.takeLetters (c :: t) >>= fun r => r.2.takeAll r.1 words := by
  rw [takeAll]
  · exact fun h => absurd h hc
  · exact fun h => absurd h hc

theorem SpellsLong.ne_nil (h : SpellsLong items awaiting t) : t ≠ [] := by
  cases h with
  | switch h => exact (ofLongName?_eq_some h).1
  | option h => exact (ofLongName?_eq_some h).1
  | value h t => simp

theorem SpellsLetters.head_ne_dash {c : Char} (h : SpellsLetters items awaiting (c :: t)) :
    c ≠ '-' := by
  rintro rfl
  cases h with
  | switch h => cases h
  | option h => cases h
  | value h => cases h

/-- Reading what spells items is giving the items. -/
theorem takeAll_of_spells {words : List Text} (h : Spells awaiting items words) (a : Arguments) :
    a.takeAll awaiting words = items.foldlM give a := by
  induction h generalizing a with
  | nil => rfl
  | dashes => rfl
  | @value k t hfree items words rest ih =>
    have hfree' : ¬ (looksLikeOption t && !takesAnything k) = true := by
      cases h : looksLikeOption t <;> simp_all
    rw [takeAll, if_neg hfree', List.foldlM_cons]
    exact bind_congr ih
  | @long items awaiting t first more words rest ih =>
    rw [takeAll_long a first.ne_nil, takeLong_of_spells first, List.foldlM_append]
    cases items.foldlM give a with
    | error stop => rfl
    | ok a => exact ih a
  | @letters items awaiting c t first more words rest ih =>
    rw [takeAll_letters a first.head_ne_dash, takeLetters_of_spells first, List.foldlM_append]
    cases items.foldlM give a with
    | error stop => rfl
    | ok a => exact ih a

theorem exists_spellsLong {a a' : Arguments} (h : a.takeLong t = .ok (awaiting, a')) :
    ∃ items, SpellsLong items awaiting t := by
  have hsplit : t.takeWhile (· != '=') ++ t.dropWhile (· != '=') = t :=
    List.takeWhile_append_dropWhile
  have hdrop : (t.takeWhile (· != '=') ++ t.dropWhile (· != '=')).drop
      (t.takeWhile (· != '=')).length = t.dropWhile (· != '=') := List.drop_left
  rw [hsplit] at hdrop
  have hfirst := List.head?_dropWhile_not (· != '=') t
  rw [takeLong, hdrop] at h
  generalize t.takeWhile (· != '=') = name at hsplit h
  generalize t.dropWhile (· != '=') = value at hsplit h hfirst
  subst hsplit
  cases hname : ofLongName? name with
  | none =>
    rw [hname] at h
    cases h
  | some n =>
    rw [hname] at h
    cases n with
    | switch s =>
      cases value with
      | nil =>
        rw [List.append_nil]
        cases hon : a.turnOn s with
        | error stop =>
          simp only [hon] at h
          cases h
        | ok a₁ =>
          simp only [hon] at h
          cases h
          exact ⟨_, .switch hname⟩
      | cons c value => cases h
    | key k =>
      cases value with
      | nil =>
        cases h
        rw [List.append_nil]
        exact ⟨_, .option hname⟩
      | cons c value =>
        have hc : c = '=' := by simpa using hfirst
        subst hc
        cases hset : a.set k value with
        | error stop =>
          simp only [hset] at h
          cases h
        | ok a₁ =>
          simp only [hset] at h
          cases h
          exact ⟨_, .value hname value⟩

theorem exists_spellsLetters {a a' : Arguments} (h : a.takeLetters t = .ok (awaiting, a')) :
    ∃ items, SpellsLetters items awaiting t := by
  induction t generalizing a with
  | nil =>
    cases h
    exact ⟨[], .nil⟩
  | cons c t ih =>
    rw [takeLetters] at h
    cases hc : ofLetter? c with
    | none =>
      rw [hc] at h
      cases h
    | some n =>
      rw [hc] at h
      cases n with
      | switch s =>
        change (a.turnOn s >>= fun a => a.takeLetters t) = _ at h
        cases hon : a.turnOn s with
        | error stop =>
          rw [hon] at h
          cases h
        | ok a₁ =>
          rw [hon] at h
          obtain ⟨items, hitems⟩ := ih h
          exact ⟨_, .switch hc hitems⟩
      | key k =>
        cases t with
        | nil =>
          cases h
          exact ⟨_, .option hc⟩
        | cons d t =>
          change (a.set k (attached (d :: t))).map _ = _ at h
          cases hset : a.set k (attached (d :: t)) with
          | error stop =>
            rw [hset] at h
            cases h
          | ok a₁ =>
            rw [hset] at h
            cases h
            exact ⟨_, .value hc (List.cons_ne_nil d t)⟩

/-- What can be read spells some items. -/
theorem exists_spells {a a' : Arguments} {words : List Text}
    (h : a.takeAll awaiting words = .ok a') : ∃ items, Spells awaiting items words := by
  induction words generalizing a awaiting with
  | nil =>
    cases awaiting with
    | none => exact ⟨[], .nil⟩
    | some k => cases h
  | cons t words ih =>
    cases awaiting with
    | some k =>
      rw [takeAll] at h
      split at h
      · cases h
      · next hfree =>
        cases hset : a.set k t with
        | error stop =>
          rw [hset] at h
          cases h
        | ok a₁ =>
          rw [hset] at h
          obtain ⟨items, hitems⟩ := ih h
          refine ⟨_, .value ?_ hitems⟩
          cases htakes : takesAnything k <;> simp_all
    | none =>
      rw [takeAll.eq_def] at h
      dsimp only at h
      split at h
      · split at h
        · next hempty =>
          rw [List.isEmpty_iff.1 hempty]
          exact ⟨[], .dashes⟩
        · cases h
      · next long hlong =>
        cases hfirst : a.takeLong long with
        | error stop =>
          rw [hfirst] at h
          cases h
        | ok r =>
          rw [hfirst] at h
          obtain ⟨more, hmore⟩ := ih h
          obtain ⟨items, hitems⟩ := exists_spellsLong hfirst
          exact ⟨_, .long hitems hmore⟩
      · next c letters _ _ =>
        cases hfirst : a.takeLetters (c :: letters) with
        | error stop =>
          rw [hfirst] at h
          cases h
        | ok r =>
          rw [hfirst] at h
          obtain ⟨more, hmore⟩ := ih h
          obtain ⟨items, hitems⟩ := exists_spellsLetters hfirst
          exact ⟨_, .letters hitems hmore⟩
      · cases h

end Spelling

def Holds (a : Arguments) : Item → Prop
  | .value .src t => a.src = some t
  | .value .dest t => a.dest = some t
  | .value .format t => ∃ d : Dialect, t = d.name.toList ∧ a.format = some d
  | .value .schema t => a.schema = some t
  | .value .flushInterval t => ∃ n, size t = .ok n ∧ a.flushInterval = some n
  | .value .utcOffset t => ∃ east, Offset.read t = .ok east ∧ a.utcOffset = some east
  | .value .bufferSize t => ∃ n, size t = .ok n ∧ a.bufferSize = some n
  | .switch s => s ∈ a.switches

def Lacks (a : Arguments) : Key → Prop
  | .src => a.src = none
  | .dest => a.dest = none
  | .format => a.format = none
  | .schema => a.schema = none
  | .flushInterval => a.flushInterval = none
  | .utcOffset => a.utcOffset = none
  | .bufferSize => a.bufferSize = none

/-- The second arguments hold what the first ones hold, the items and nothing else. -/
structure Gained (items : List Item) (a a' : Arguments) : Prop where
  held : ∀ i ∈ items, a'.Holds i
  kept : ∀ i, a.Holds i → a'.Holds i
  lacked : ∀ k, (∀ t, .value k t ∉ items) → a.Lacks k → a'.Lacks k
  off : ∀ s, .switch s ∉ items → s ∉ a.switches → s ∉ a'.switches

namespace Gained

variable {items more : List Item} {a a' a'' : Arguments}

theorem refl (a : Arguments) : Gained [] a a :=
  ⟨nofun, fun _ h => h, fun _ _ h => h, fun _ _ h => h⟩

theorem trans (h : Gained items a a') (h' : Gained more a' a'') : Gained (items ++ more) a a'' := by
  constructor
  · intro i hi
    rcases List.mem_append.1 hi with hi | hi
    · exact h'.kept i (h.held i hi)
    · exact h'.held i hi
  · intro i hi
    exact h'.kept i (h.kept i hi)
  · intro k hk hlacks
    refine h'.lacked k (fun t ht => hk t ?_) (h.lacked k (fun t ht => hk t ?_) hlacks)
    · exact List.mem_append_right _ ht
    · exact List.mem_append_left _ ht
  · intro s hs hoff
    refine h'.off s (fun hmem => hs ?_) (h.off s (fun hmem => hs ?_) hoff)
    · exact List.mem_append_right _ hmem
    · exact List.mem_append_left _ hmem

end Gained

section Giving

variable {a a' : Arguments} {i : Item} {k : Key} {t : Text} {stop : Stop}

theorem once_map_eq_ok {α : Type} {old : Option α} {new : Except Stop α}
    {f : Option α → Arguments} (h : (once old new).map f = .ok a') :
    old = none ∧ ∃ v, new = .ok v ∧ a' = f (some v) := by
  cases old with
  | some v => cases h
  | none =>
    cases new with
    | error stop => cases h
    | ok v =>
      cases h
      exact ⟨rfl, v, rfl, rfl⟩

theorem once_map_eq_error {α : Type} {old : Option α} {new : Except Stop α}
    {f : Option α → Arguments} (h : (once old new).map f = .error stop) :
    stop = .usage ∨ new = .error stop := by
  cases old with
  | some v =>
    cases h
    exact .inl rfl
  | none =>
    cases new with
    | error stop =>
      cases h
      exact .inr rfl
    | ok v => cases h

theorem path_eq_ok {v : Text} (h : path t = .ok v) : v = t := by
  rw [path] at h
  split at h <;> cases h
  rfl

theorem dialect_eq_ok_iff {d : Dialect} : dialect t = .ok d ↔ t = d.name.toList := by
  constructor
  · intro h
    rw [dialect] at h
    split at h
    · next d' hd =>
      cases h
      simpa using List.find?_some hd
    · cases h
  · rintro rfl
    cases d <;> rfl

theorem offset_eq_ok_iff {east : Int} : offset t = .ok east ↔ Offset.read t = .ok east := by
  rw [offset]
  split <;> rename_i h <;> simp [h]

theorem lacks_of_set (h : a.set k t = .ok a') : a.Lacks k := by
  cases k <;> exact (once_map_eq_ok h).1

theorem holds_of_set (h : a.set k t = .ok a') : a'.Holds (.value k t) := by
  cases k with
  | src | dest =>
    obtain ⟨-, v, hv, rfl⟩ := once_map_eq_ok h
    exact congrArg some (path_eq_ok hv)
  | format =>
    obtain ⟨-, d, hd, rfl⟩ := once_map_eq_ok h
    exact ⟨d, dialect_eq_ok_iff.1 hd, rfl⟩
  | schema =>
    obtain ⟨-, v, hv, rfl⟩ := once_map_eq_ok h
    cases hv
    rfl
  | flushInterval | bufferSize =>
    obtain ⟨-, n, hn, rfl⟩ := once_map_eq_ok h
    exact ⟨n, hn, rfl⟩
  | utcOffset =>
    obtain ⟨-, east, heast, rfl⟩ := once_map_eq_ok h
    exact ⟨east, offset_eq_ok_iff.1 heast, rfl⟩

/-- Giving an option its value leaves the other options and the switches alone. -/
theorem frame_of_set (h : a.set k t = .ok a') :
    a'.switches = a.switches ∧ ∀ k' ≠ k, (a'.Lacks k' ↔ a.Lacks k') ∧
      ∀ t', a'.Holds (.value k' t') ↔ a.Holds (.value k' t') := by
  cases k <;> obtain ⟨-, v, -, rfl⟩ := once_map_eq_ok h <;> refine ⟨rfl, fun k' hk => ?_⟩ <;>
    cases k' <;> first | exact absurd rfl hk | exact ⟨Iff.rfl, fun _ => Iff.rfl⟩

theorem Lacks.not_holds (h : a.Lacks k) (t : Text) : ¬ a.Holds (.value k t) := by
  intro hholds
  cases k <;> simp_all [Lacks, Holds]

theorem gained_of_set (h : a.set k t = .ok a') : Gained [.value k t] a a' := by
  obtain ⟨hswitches, hframe⟩ := frame_of_set h
  constructor
  · intro i hi
    cases List.mem_singleton.1 hi
    exact holds_of_set h
  · intro i hi
    cases i with
    | value k' t' =>
      by_cases hk : k' = k
      · subst hk
        exact absurd hi ((lacks_of_set h).not_holds t')
      · exact ((hframe k' hk).2 t').2 hi
    | switch s =>
      change s ∈ a'.switches
      rw [hswitches]
      exact hi
  · intro k' hk' hlacks
    have hk : k' ≠ k := by
      rintro rfl
      exact hk' t (List.mem_singleton.2 rfl)
    exact (hframe k' hk).1.2 hlacks
  · intro s _ hoff
    exact hswitches ▸ hoff

/-- Only help and the version are not turned on but stop the reading. -/
theorem gained_of_turnOn {s : Switch} (h : a.turnOn s = .ok a') : Gained [.switch s] a a' := by
  have ha' : a' = { a with switches := s :: a.switches } := by
    cases s <;> simp only [turnOn] at h
    all_goals first
      | cases h
      | (split at h <;> cases h; rfl)
  subst ha'
  constructor
  · intro i hi
    cases List.mem_singleton.1 hi
    exact List.mem_cons_self
  · intro i hi
    cases i with
    | value k t => cases k <;> exact hi
    | switch s' => exact List.mem_cons_of_mem _ hi
  · intro k _ hlacks
    cases k <;> exact hlacks
  · intro s' hs' hoff hmem
    rcases List.mem_cons.1 hmem with rfl | hmem
    · exact hs' (List.mem_singleton.2 rfl)
    · exact hoff hmem

theorem gained_of_foldlM {items : List Item} (h : items.foldlM give a = .ok a') :
    Gained items a a' := by
  induction items generalizing a with
  | nil =>
    cases h
    exact .refl _
  | cons i items ih =>
    rw [List.foldlM_cons] at h
    cases hi : a.give i with
    | error stop =>
      rw [hi] at h
      cases h
    | ok a₁ =>
      rw [hi] at h
      have hfirst : Gained [i] a a₁ := by
        cases i with
        | value k t => exact gained_of_set hi
        | switch s => exact gained_of_turnOn hi
      exact hfirst.trans (ih h)

inductive Stops : Item → Stop → Prop
  | usage (i : Item) : Stops i .usage
  | help : Stops (.switch .help) .help
  | version : Stops (.switch .version) .version
  | overflow {t : Text} {o : Overflow} (h : Offset.read t = .error (.overflow o)) :
    Stops (.value .utcOffset t) (.overflow o)

theorem stops_of_give (h : a.give i = .error stop) : Stops i stop := by
  cases i with
  | switch s =>
    cases s <;> simp only [give, turnOn] at h
    case help => cases h; exact .help
    case version => cases h; exact .version
    all_goals
      split at h <;> cases h
      exact .usage _
  | value k t =>
    cases k with
    | src | dest =>
      rcases once_map_eq_error h with rfl | hpath
      · exact .usage _
      · rw [path] at hpath
        split at hpath <;> cases hpath
        exact .usage _
    | format =>
      rcases once_map_eq_error h with rfl | hformat
      · exact .usage _
      · rw [dialect] at hformat
        split at hformat <;> cases hformat
        exact .usage _
    | schema =>
      rcases once_map_eq_error h with rfl | hschema
      · exact .usage _
      · cases hschema
    | flushInterval | bufferSize =>
      rcases once_map_eq_error h with rfl | hsize
      · exact .usage _
      · rw [size] at hsize
        split at hsize <;> cases hsize
        exact .usage _
    | utcOffset =>
      rcases once_map_eq_error h with rfl | hoffset
      · exact .usage _
      · rw [offset] at hoffset
        split at hoffset <;> cases hoffset
        · exact .usage _
        · exact .overflow ‹_›

theorem stops_of_foldlM {items : List Item} (h : items.foldlM give a = .error stop) :
    ∃ i ∈ items, Stops i stop := by
  induction items generalizing a with
  | nil => cases h
  | cons i items ih =>
    rw [List.foldlM_cons] at h
    cases hi : a.give i with
    | error stop' =>
      rw [hi] at h
      cases h
      exact ⟨i, List.mem_cons_self, stops_of_give hi⟩
    | ok a₁ =>
      rw [hi] at h
      obtain ⟨j, hj, hstops⟩ := ih h
      exact ⟨j, List.mem_cons_of_mem i hj, hstops⟩

end Giving

def request (args : List Text) : Except Stop (Arguments × Text × Text) :=
  match read args with
  | .error stop => .error stop
  | .ok a =>
    match a.src, a.dest with
    | some src, some dest => .ok (a, src, dest)
    | _, _ => .error .usage

section Requests

variable {items : List Item} {args : List Text} {a : Arguments} {src dest : Text}

theorem request_eq_ok_iff :
    request args = .ok (a, src, dest) ↔
      read args = .ok a ∧ a.src = some src ∧ a.dest = some dest := by
  rw [request]
  cases read args with
  | error stop => simp
  | ok a' =>
    dsimp only
    constructor
    · intro h
      split at h <;> cases h
      exact ⟨rfl, ‹_›, ‹_›⟩
    · rintro ⟨h, hsrc, hdest⟩
      cases h
      rw [hsrc, hdest]

theorem gained_of_request (h : Spells none items args)
    (hrequest : request args = .ok (a, src, dest)) : Gained items {} a := by
  rw [request_eq_ok_iff, read, takeAll_of_spells h] at hrequest
  exact gained_of_foldlM hrequest.1

/-- A request is refused for its usage, unless one of its items stops it otherwise. -/
theorem request_eq_usage (h : Spells none items args) (hhelp : .switch .help ∉ items)
    (hversion : .switch .version ∉ items)
    (hoffset : ∀ t o, .value .utcOffset t ∈ items → Offset.read t ≠ .error (.overflow o))
    (hnone : ∀ a src dest, request args ≠ .ok (a, src, dest)) : request args = .error .usage := by
  cases hrequest : request args with
  | ok r => exact absurd hrequest (hnone r.1 r.2.1 r.2.2)
  | error stop =>
    rw [request, read, takeAll_of_spells h] at hrequest
    cases hread : items.foldlM give {} with
    | error stop' =>
      rw [hread] at hrequest
      cases hrequest
      obtain ⟨i, hi, hstops⟩ := stops_of_foldlM hread
      cases hstops with
      | usage => rfl
      | help => exact absurd hi hhelp
      | version => exact absurd hi hversion
      | overflow ho => exact absurd ho (hoffset _ _ hi)
    | ok a =>
      rw [hread] at hrequest
      dsimp only at hrequest
      split at hrequest <;> cases hrequest
      rfl

/-- An unknown format, an offset that cannot be read and a missing path are refused. -/
theorem request_refused (h : Spells none items args)
    (hbad : (∃ t, .value .format t ∈ items ∧ ∀ d : Dialect, t ≠ d.name.toList) ∨
      (∃ t fault, .value .utcOffset t ∈ items ∧ Offset.read t = .error (.fault fault)) ∨
      (∀ t, .value .src t ∉ items) ∨ ∀ t, .value .dest t ∉ items)
    (a : Arguments) (src dest : Text) : request args ≠ .ok (a, src, dest) := by
  intro hrequest
  have hgained := gained_of_request h hrequest
  obtain ⟨-, hsrc, hdest⟩ := request_eq_ok_iff.1 hrequest
  rcases hbad with ⟨t, ht, hformat⟩ | ⟨t, fault, ht, hoffset⟩ | hmissing | hmissing
  · obtain ⟨d, hd, -⟩ := hgained.held _ ht
    exact hformat d hd
  · obtain ⟨east, heast, -⟩ := hgained.held _ ht
    cases hoffset.symm.trans heast
  · cases hsrc.symm.trans (hgained.lacked .src hmissing rfl)
  · cases hdest.symm.trans (hgained.lacked .dest hmissing rfl)

end Requests
end Arguments
end ReplayLog.Cli
