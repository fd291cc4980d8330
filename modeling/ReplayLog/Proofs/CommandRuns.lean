import ReplayLog.Cli.World
import ReplayLog.Proofs.CommandLines
import ReplayLog.Proofs.GrowingSource

/-! # Runs of the command

What the command does to a world of files. A request that is refused leaves every file alone. A
request between two files leaves in the destination what the run over the source writes, whatever
was there before, and changes no other file; so running the command again changes nothing. -/
namespace ReplayLog.Cli

namespace World

variable {w w' w'' : World} {p q place : Path} {names : List Text} {bytes : List UInt8} {t : Text}

structure SameFiles (w w' : World) : Prop where
  nodes : w'.nodes = w.nodes
  current : w'.current = w.current
  memory : w'.memory = w.memory

namespace SameFiles

theorem refl (w : World) : SameFiles w w := ⟨rfl, rfl, rfl⟩

theorem symm (h : SameFiles w w') : SameFiles w' w :=
  ⟨h.nodes.symm, h.current.symm, h.memory.symm⟩

theorem trans (h : SameFiles w w') (h' : SameFiles w' w'') : SameFiles w w'' :=
  ⟨h'.nodes.trans h.nodes, h'.current.trans h.current, h'.memory.trans h.memory⟩

theorem node? (h : SameFiles w w') (p : Path) : w'.node? p = w.node? p := by
  rw [World.node?, World.node?, h.nodes, h.current]

theorem walk (h : SameFiles w w') (place : Path) (names : List Text) :
    w'.walk place names = w.walk place names := by
  induction names generalizing place with
  | nil => rfl
  | cons name names ih =>
    rw [World.walk, World.walk, h.node?]
    split
    · rw [ih]
    · rfl
    · rfl

theorem resolve (h : SameFiles w w') (t : Text) : w'.resolve t = w.resolve t := by
  simp only [World.resolve, World.origin, h.current, h.walk]

theorem resolveNew (h : SameFiles w w') (t : Text) : w'.resolveNew t = w.resolveNew t := by
  simp only [World.resolveNew, World.origin, h.current, h.walk]

theorem contents? (h : SameFiles w w') (t : Text) : w'.contents? t = w.contents? t := by
  simp only [World.contents?, h.resolve, h.node?]

theorem put (h : SameFiles w w') (p : Path) (bytes : List UInt8) :
    SameFiles (w.put p bytes) (w'.put p bytes) := by
  refine ⟨?_, h.current, h.memory⟩
  rw [World.put, World.put, h.nodes]

theorem append (h : SameFiles w w') (t text : Text) :
    SameFiles (w.append t text) (w'.append t text) := by
  rw [World.append, World.append, h.resolve]
  split
  · exact h
  · rw [h.node?]
    split
    · exact h.put _ _
    · exact h

end SameFiles

theorem put_put (w : World) (p : Path) (old bytes : List UInt8) :
    (w.put p old).put p bytes = w.put p bytes := by
  have hfilter : ((p, Node.file old) :: w.nodes.filter fun n => n.1 != p).filter
      (fun n => n.1 != p) = w.nodes.filter fun n => n.1 != p := by
    rw [List.filter_cons_of_neg (by simp), List.filter_filter]
    simp
  simp only [put, hfilter]

/-- No file can be put in the place of a directory that the world stands in. -/
theorem node?_put_self (h : w.node? p ≠ some .directory) (bytes : List UInt8) :
    (w.put p bytes).node? p = some (.file bytes) := by
  have hp : ¬ p.isPrefixOf w.current = true := by
    intro hprefix
    rw [node?, if_pos hprefix] at h
    exact h rfl
  rw [node?, put, if_neg hp]
  simp

theorem node?_put_of_ne (h : p ≠ q) (w : World) (bytes : List UInt8) :
    (w.put q bytes).node? p = w.node? p := by
  have hne : (q == p) = false := beq_eq_false_iff_ne.2 h.symm
  rw [node?, node?, put]
  dsimp only
  split
  · rfl
  · rw [List.find?_cons_of_neg (by simp [h.symm]), List.find?_filter]
    congr 2
    funext n
    by_cases hn : n.1 = p <;> simp [hn, h]

/-- Paths do not lead through files, so those that lead somewhere lead there still. -/
theorem walk_put (h : w.node? q ≠ some .directory) (bytes : List UInt8)
    (hwalk : w.walk place names = .ok p) : (w.put q bytes).walk place names = .ok p := by
  induction names generalizing place with
  | nil => exact hwalk
  | cons name names ih =>
    rw [walk] at hwalk ⊢
    cases hnode : w.node? place with
    | none =>
      rw [hnode] at hwalk
      cases hwalk
    | some node =>
      rw [hnode] at hwalk
      cases node with
      | file _ => cases hwalk
      | void => cases hwalk
      | directory =>
        have hne : place ≠ q := by
          rintro rfl
          exact h hnode
        rw [node?_put_of_ne hne, hnode]
        dsimp only at hwalk ⊢
        split
        · next hlong =>
          rw [if_pos hlong] at hwalk
          cases hwalk
        · next hlong =>
          rw [if_neg hlong] at hwalk
          exact ih hwalk

theorem resolve_put (h : w.node? q ≠ some .directory) (bytes : List UInt8)
    (hresolve : w.resolve t = .ok p) : (w.put q bytes).resolve t = .ok p := by
  rw [resolve] at hresolve ⊢
  cases hroute : Route.read t with
  | error reason =>
    rw [hroute] at hresolve
    cases hresolve
  | ok r =>
    rw [hroute] at hresolve
    exact walk_put h bytes hresolve

theorem resolveNew_eq_ok_iff : w.resolveNew t = .ok p ↔
    ∃ r, Route.read t = .ok r ∧ r.toDirectory = false ∧ w.walk (w.origin r) r.names = .ok p := by
  rw [resolveNew]
  cases Route.read t with
  | error reason =>
    refine ⟨nofun, ?_⟩
    rintro ⟨r, hr, -⟩
    cases hr
  | ok r =>
    simp only [Except.ok.injEq, exists_eq_left']
    change (if r.toDirectory = true then _ else _) = _ ↔ _
    cases r.toDirectory with
    | true =>
      refine ⟨fun h => ?_, fun h => absurd h.1 (by decide)⟩
      rw [if_pos rfl] at h
      cases hwalk : w.walk (w.origin r) (r.names.dropLast ++ [['.']]) with
      | error reason =>
        rw [hwalk] at h
        cases h
      | ok place =>
        rw [hwalk] at h
        cases h
    | false =>
      rw [if_neg (by decide)]
      exact ⟨fun h => ⟨rfl, h⟩, fun h => h.2⟩

/-- A place for a new file is where its path leads. -/
theorem resolve_of_resolveNew (h : w.resolveNew t = .ok p) : w.resolve t = .ok p := by
  obtain ⟨r, hr, hfile, hwalk⟩ := resolveNew_eq_ok_iff.1 h
  rw [resolve, hr]
  change w.walk (w.origin r) (if r.toDirectory = true then _ else _) = _
  rw [hfile]
  exact hwalk

theorem resolveNew_put (h : w.node? q ≠ some .directory) (bytes : List UInt8)
    (hresolve : w.resolveNew t = .ok p) : (w.put q bytes).resolveNew t = .ok p := by
  obtain ⟨r, hr, hfile, hwalk⟩ := resolveNew_eq_ok_iff.1 hresolve
  exact resolveNew_eq_ok_iff.2 ⟨r, hr, hfile, walk_put h bytes hwalk⟩

/-- The source is a file of such bytes, and the destination is another file or can become one. -/
structure Ready (w : World) (src dest : Text) (bytes : List UInt8) (p q : Path) : Prop where
  source : w.resolve src = .ok p
  file : w.node? p = some (.file bytes)
  destination : w.resolveNew dest = .ok q
  writable : w.node? q = none ∨ ∃ old, w.node? q = some (.file old)
  different : p ≠ q

namespace Ready

variable {src dest : Text}

theorem not_directory (h : w.Ready src dest bytes p q) : w.node? q ≠ some .directory := by
  rcases h.writable with hnone | ⟨old, hfile⟩
  · simp [hnone]
  · simp [hfile]

theorem sameFiles (h : w.Ready src dest bytes p q) (hsame : SameFiles w w') :
    w'.Ready src dest bytes p q where
  source := (hsame.resolve src).trans h.source
  file := (hsame.node? p).trans h.file
  destination := (hsame.resolveNew dest).trans h.destination
  writable := by
    rw [hsame.node?]
    exact h.writable
  different := h.different

theorem put (h : w.Ready src dest bytes p q) (content : List UInt8) :
    (w.put q content).Ready src dest bytes p q where
  source := resolve_put h.not_directory content h.source
  file := (node?_put_of_ne h.different w content).trans h.file
  destination := resolveNew_put h.not_directory content h.destination
  writable := .inr ⟨content, node?_put_self h.not_directory content⟩
  different := h.different

theorem truncate_eq (h : w.Ready src dest bytes p q) :
    w.truncate dest = (.ok (), w.put q []) := by
  rw [truncate, h.destination]
  rcases h.writable with hnone | ⟨old, hfile⟩
  · simp only [hnone]
  · simp only [hfile]

theorem openSource_eq (h : w.Ready src dest bytes p q) :
    w.openSource src = .ok (.ofReads [bytes] none) := by
  rw [openSource, h.source]
  dsimp only [bind, Except.bind]
  rw [h.file]
  rfl

theorem append_eq (h : w.Ready src dest bytes p q) (content : List UInt8) (text : Text) :
    (w.put q content).append dest text = w.put q (content ++ text.toUtf8) := by
  have hresolve := resolve_of_resolveNew (h.put content).destination
  rw [append, hresolve]
  simp only [node?_put_self h.not_directory content, put_put]

theorem contents?_put (h : w.Ready src dest bytes p q) (content : List UInt8) :
    (w.put q content).contents? dest = some content := by
  have hresolve := resolve_of_resolveNew (h.put content).destination
  rw [contents?, hresolve]
  simp only [node?_put_self h.not_directory content]

end Ready

section Commands

/-- Logging changes no file. -/
theorem logAll_sameFiles (verbose : Bool) (messages : List (Level × String)) (w : World) :
    SameFiles w ((host.logAll verbose messages).run w).2 := by
  induction messages generalizing w with
  | nil => exact .refl w
  | cons message messages ih =>
    obtain ⟨level, text⟩ := message
    have hfirst : SameFiles w ((host.logUnlessQuiet verbose level text).run w).2 := by
      unfold Host.logUnlessQuiet
      split
      · exact .refl w
      · exact ⟨rfl, rfl, rfl⟩
    exact hfirst.trans (ih _)

def exitOf : Progress.Result → Exit
  | .ok () => .code 0
  | .error (.fault _) => .code 1
  | .error (.overflow _) => .code 101

/-- Converting an opened source appends what the run writes to the destination. -/
theorem convert_run {a : Arguments} {zone : Zone} {source : Source} {result : Progress.Result}
    {p : Progress} (hrun : (a.settings zone).run (.ofSource a.capacity source) ⟨{}, a.interval, 0⟩ =
      (result, p)) (src dest : Text) (w : World) :
    ((convert host a zone src dest source).run w).1 = exitOf result ∧
      SameFiles (w.append dest p.writer.sink.text)
        ((convert host a zone src dest source).run w).2 := by
  have hbefore : SameFiles w ((host.logAll (a.has .verbose)
      (p.remarks.toList.map fun r => (r.level, r.message))).run
        ((host.logAll (a.has .verbose)
          [(.info, s!"begin analyse {String.ofList src}")]).run w).2).2 :=
    (logAll_sameFiles _ _ w).trans (logAll_sameFiles _ _ _)
  have happended := hbefore.append dest p.writer.sink.text
  rw [convert, hrun]
  rcases result with (f | o) | -
  · refine ⟨rfl, happended.trans ?_⟩
    exact logAll_sameFiles (a.has .verbose)
      (tallyMessage p.tally :: endMessages (String.ofList src) p.tally (.error f)) _
  · exact ⟨rfl, happended.trans ⟨rfl, rfl, rfl⟩⟩
  · refine ⟨rfl, happended.trans ?_⟩
    exact logAll_sameFiles (a.has .verbose)
      (tallyMessage p.tally :: endMessages (String.ofList src) p.tally (.ok ())) _

theorem run_bind {α β : Type} {x : StateM World α} {w w' : World} {a : α}
    (hx : x.run w = (a, w')) (f : α → StateM World β) : (x >>= f).run w = (f a).run w' := by
  change (f (x.run w).1).run (x.run w).2 = (f a).run w'
  rw [hx]

/-- Between two files the command empties the destination, and appends to it what the run writes if
there is a buffer to run with. -/
theorem convertFiles_run {src dest : Text} (h : w.Ready src dest bytes p q) (a : Arguments)
    (zone : Zone) {r : Exit × World} (hr : (convertFiles host a zone src dest).run w = r) :
    let done := (a.settings zone).run (.ofSource a.capacity (.ofReads [bytes] none))
      ⟨{}, a.interval, 0⟩
    if greatestCapacity < a.capacity then r.1 = .code 101 ∧ SameFiles (w.put q []) r.2
    else if w.memory < a.capacity then r.1 = .aborted ∧ SameFiles (w.put q []) r.2
    else r.1 = exitOf done.1 ∧ SameFiles (w.put q done.2.writer.sink.text.toUtf8) r.2 := by
  unfold convertFiles at hr
  extract_lets verbose dialect proceed at hr
  have hproceed : ∃ w₁, SameFiles w w₁ ∧ (proceed ()).run w₁ = r := by
    split at hr
    · let warning := [(Level.warn, s!"--flush-trailing has no effect for {dialect.name}")]
      have hwarned : (host.logAll verbose warning).run w =
          ((), ((host.logAll verbose warning).run w).2) := rfl
      rw [run_bind hwarned] at hr
      exact ⟨_, logAll_sameFiles verbose warning w, hr⟩
    · exact ⟨w, .refl w, hr⟩
  obtain ⟨w₁, hsame, hr⟩ := hproceed
  have hready := h.sameFiles hsame
  have hput := hsame.put q []
  have htruncate : (host.truncate dest).run w₁ = (.ok (), w₁.put q []) := hready.truncate_eq
  have hopen : (host.openSource src).run (w₁.put q []) =
      (.ok (.ofReads [bytes] none), w₁.put q []) :=
    congrArg (·, w₁.put q []) (hready.put []).openSource_eq
  dsimp only [proceed] at hr
  rw [run_bind htruncate] at hr
  dsimp only at hr
  intro done
  by_cases hgreat : greatestCapacity < a.capacity
  · rw [if_pos hgreat] at hr ⊢
    subst hr
    exact ⟨rfl, hput.trans ⟨rfl, rfl, rfl⟩⟩
  · rw [if_neg hgreat] at hr ⊢
    have hmemory : (host.memory).run (w₁.put q []) = (w.memory, w₁.put q []) :=
      congrArg (·, w₁.put q []) hsame.memory
    rw [run_bind hmemory] at hr
    by_cases hroom : w.memory < a.capacity
    · rw [if_pos hroom] at hr ⊢
      subst hr
      exact ⟨rfl, hput.trans ⟨rfl, rfl, rfl⟩⟩
    · rw [if_neg hroom] at hr ⊢
      rw [run_bind hopen] at hr
      subst hr
      obtain ⟨hexit, hfiles⟩ := convert_run (Prod.eta done).symm src dest (w₁.put q [])
      rw [hready.append_eq] at hfiles
      exact ⟨hexit, (hsame.put q _).trans hfiles⟩

def exitOfStop : Stop → Exit
  | .usage => .code 2
  | .help | .version => .code 0
  | .overflow _ => .code 101

theorem runCommand_of_stop {args : List Text} {stop : Stop}
    (h : Arguments.request args = .error stop) (w : World) (zone : Zone) :
    (w.runCommand zone args).1 = exitOfStop stop ∧ SameFiles w (w.runCommand zone args).2 := by
  rw [Arguments.request] at h
  rw [runCommand, run]
  cases hread : Arguments.read args with
  | error stop' =>
    rw [hread] at h
    cases h
    cases stop <;> exact ⟨rfl, ⟨rfl, rfl, rfl⟩⟩
  | ok a =>
    rw [hread] at h
    dsimp only at h ⊢
    cases hsrc : a.src with
    | none =>
      rw [hsrc] at h
      cases h
      exact ⟨rfl, ⟨rfl, rfl, rfl⟩⟩
    | some src =>
      cases hdest : a.dest with
      | none =>
        rw [hsrc, hdest] at h
        cases h
        exact ⟨rfl, ⟨rfl, rfl, rfl⟩⟩
      | some dest =>
        rw [hsrc, hdest] at h
        cases h

theorem runCommand_of_request {args : List Text} {a : Arguments} {src dest : Text}
    (h : Arguments.request args = .ok (a, src, dest)) (w : World) (zone : Zone) :
    w.runCommand zone args = (convertFiles host a zone src dest).run w := by
  obtain ⟨hread, hsrc, hdest⟩ := Arguments.request_eq_ok_iff.1 h
  rw [runCommand, run, hread]
  dsimp only
  rw [hsrc, hdest]

section Requests

variable {args : List Text} {a : Arguments} {src dest : Text}

/-- With a buffer to run with, the command leaves the world with what the account of the source says
in the destination. -/
theorem runCommand_of_ready (hrequest : Arguments.request args = .ok (a, src, dest))
    (h : w.Ready src dest bytes p q) (hgreat : a.capacity ≤ greatestCapacity)
    (hroom : a.capacity ≤ w.memory) (zone : Zone) :
    let account := (a.settings zone).account (.ofSource a.capacity (.ofReads [bytes] none))
    (w.runCommand zone args).1 = exitOf account.result ∧
      SameFiles (w.put q account.text.toUtf8) (w.runCommand zone args).2 := by
  intro account
  have hrun := convertFiles_run h a zone (runCommand_of_request hrequest w zone).symm
  rw [if_neg (Nat.not_lt.2 hgreat), if_neg (Nat.not_lt.2 hroom)] at hrun
  obtain ⟨hresult, htext⟩ := Settings.run_text (w := ⟨{}, a.interval, 0⟩) (a.settings zone)
    (.ofSource a.capacity (.ofReads [bytes] none)) ⟨rfl, rfl⟩
  rw [hresult, htext] at hrun
  exact hrun

/-- What the command leaves does not depend on what was there, nor on the interval of its run. -/
theorem runCommand_leaves (hrequest : Arguments.request args = .ok (a, src, dest))
    (h : w.Ready src dest bytes p q) (hgreat : a.capacity ≤ greatestCapacity)
    (hroom : a.capacity ≤ w.memory) (zone : Zone) :
    let r := w.runCommand zone args
    let source := BufferedSource.ofSource a.capacity (.ofReads [bytes] none)
    (∀ interval, let done := (a.settings zone).run source ⟨{}, interval, 0⟩
      r.1 = exitOf done.1 ∧ r.2.contents? dest = some done.2.writer.sink.text.toUtf8) ∧
    r.2.contents? dest = some ((a.settings zone).account source).text.toUtf8 ∧
    ∀ place ≠ q, r.2.node? place = w.node? place := by
  intro r source
  obtain ⟨hexit, hfiles⟩ := runCommand_of_ready hrequest h hgreat hroom zone
  have hcontents := (hfiles.contents? dest).trans (h.contents?_put _)
  refine ⟨?_, hcontents, ?_⟩
  · intro interval done
    obtain ⟨hresult, htext⟩ := Settings.run_text (w := ⟨{}, interval, 0⟩) (a.settings zone) source
      ⟨rfl, rfl⟩
    exact ⟨hexit.trans (congrArg exitOf hresult.symm),
      hcontents.trans (congrArg (some ·.toUtf8) htext.symm)⟩
  · intro place hplace
    exact (hfiles.node? place).trans (node?_put_of_ne hplace w _)

/-- Running the command again ends alike and leaves the same files. -/
theorem runCommand_again (hrequest : Arguments.request args = .ok (a, src, dest))
    (h : w.Ready src dest bytes p q) (hgreat : a.capacity ≤ greatestCapacity)
    (hroom : a.capacity ≤ w.memory) (zone : Zone) :
    let r := w.runCommand zone args
    (r.2.runCommand zone args).1 = r.1 ∧ SameFiles r.2 (r.2.runCommand zone args).2 := by
  intro r
  let text := ((a.settings zone).account (.ofSource a.capacity (.ofReads [bytes] none))).text.toUtf8
  obtain ⟨hexit, hfiles⟩ := runCommand_of_ready hrequest h hgreat hroom zone
  obtain ⟨hexit', hfiles'⟩ := runCommand_of_ready hrequest ((h.put text).sameFiles hfiles) hgreat
    (hroom.trans hfiles.memory.ge) zone
  have hput : SameFiles (w.put q text) (r.2.put q text) := put_put w q text text ▸ hfiles.put q text
  exact ⟨hexit'.trans hexit.symm, (hfiles.symm.trans hput).trans hfiles'⟩

/-- Without a buffer to run with the command stops behind emptying the destination. -/
theorem runCommand_empties (hrequest : Arguments.request args = .ok (a, src, dest))
    (h : w.Ready src dest bytes p q)
    (hbuffer : ¬ (a.capacity ≤ greatestCapacity ∧ a.capacity ≤ w.memory)) (zone : Zone) :
    let r := w.runCommand zone args
    (r.1 = .code 101 ∨ r.1 = .aborted) ∧ r.2.contents? dest = some [] := by
  have hrun := convertFiles_run h a zone (runCommand_of_request hrequest w zone).symm
  split at hrun
  · exact ⟨.inl hrun.1, (hrun.2.contents? dest).trans (h.contents?_put [])⟩
  · next hgreat =>
    split at hrun
    · exact ⟨.inr hrun.1, (hrun.2.contents? dest).trans (h.contents?_put [])⟩
    · next hroom => exact absurd ⟨Nat.not_lt.1 hgreat, Nat.not_lt.1 hroom⟩ hbuffer

end Requests

theorem settings_eq (a : Arguments) (zone : Zone) :
    ({ dialect := a.format.getD .sqlAudit
       encoding := if .lossyUtf8 ∈ a.switches then .lossy else .strict
       zone := match a.utcOffset with
         | some east => .fixed east
         | none => zone
       trailing := if .flushTrailing ∈ a.switches then .emit else .drop
       schema := a.schema.getD "cgljfl".toList } : Settings) = a.settings zone := by
  cases hoffset : a.utcOffset <;>
    simp [Arguments.settings, Arguments.has, hoffset, Dialect.standard]

/-- A request that is refused ends with its own code and leaves every file alone; an unknown format,
an offset that cannot be read and a missing path are refused for their usage. A request that is read
holds what the command line spells. Between two files, and with a buffer to run with, it leaves in
the destination what a run under its settings writes, with whatever interval: the records before the
first failure of the source. The exit tells whether there was one; nothing else is changed, and
running the command again changes nothing at all. -/
theorem runCommand_converts (w : World) (zone : Zone) (args : List Text) :
    let r := w.runCommand zone args
    (∀ stop, Arguments.request args = .error stop →
      r.1 = exitOfStop stop ∧ r.2.nodes = w.nodes) ∧
    (∀ items, Arguments.Spells none items args →
      .switch .help ∉ items → .switch .version ∉ items →
      (∀ t o, .value .utcOffset t ∈ items → Offset.read t ≠ .error (.overflow o)) →
      ((∃ t, .value .format t ∈ items ∧ ∀ d : Dialect, t ≠ d.name.toList) ∨
        (∃ t fault, .value .utcOffset t ∈ items ∧ Offset.read t = .error (.fault fault)) ∨
        (∀ t, .value .src t ∉ items) ∨ ∀ t, .value .dest t ∉ items) →
      r.1 = .code 2 ∧ r.2.nodes = w.nodes) ∧
    ∀ a src dest, Arguments.request args = .ok (a, src, dest) →
      (∃ items, Arguments.Spells none items args) ∧
      (∀ items, Arguments.Spells none items args → Arguments.Gained items {} a) ∧
      a.src = some src ∧ a.dest = some dest ∧
      ∀ bytes p q, w.Ready src dest bytes p q →
        let s : Settings := {
          dialect := a.format.getD .sqlAudit
          encoding := if .lossyUtf8 ∈ a.switches then .lossy else .strict
          zone := match a.utcOffset with
            | some east => .fixed east
            | none => zone
          trailing := if .flushTrailing ∈ a.switches then .emit else .drop
          schema := a.schema.getD "cgljfl".toList }
        let capacity := a.bufferSize.getD 65536
        let source := BufferedSource.ofSource capacity (.ofReads [bytes] none)
        (capacity ≤ greatestCapacity → capacity ≤ w.memory →
          (∀ interval, let done := s.run source ⟨{}, interval, 0⟩
            r.1 = exitOf done.1 ∧ r.2.contents? dest = some done.2.writer.sink.text.toUtf8) ∧
          r.2.contents? dest = some (s.account source).text.toUtf8 ∧
          (∀ place ≠ q, r.2.node? place = w.node? place) ∧
          (r.2.runCommand zone args).1 = r.1 ∧
          ∀ t, (r.2.runCommand zone args).2.contents? t = r.2.contents? t) ∧
        (¬ (capacity ≤ greatestCapacity ∧ capacity ≤ w.memory) →
          (r.1 = .code 101 ∨ r.1 = .aborted) ∧ r.2.contents? dest = some []) := by
  intro r
  refine ⟨?_, ?_, ?_⟩
  · intro stop hstop
    obtain ⟨hexit, hfiles⟩ := runCommand_of_stop hstop w zone
    exact ⟨hexit, hfiles.nodes⟩
  · intro items hitems hhelp hversion hoffset hbad
    have husage := Arguments.request_eq_usage hitems hhelp hversion hoffset
      (Arguments.request_refused hitems hbad)
    obtain ⟨hexit, hfiles⟩ := runCommand_of_stop husage w zone
    exact ⟨hexit, hfiles.nodes⟩
  · intro a src dest hrequest
    obtain ⟨hread, hsrc, hdest⟩ := Arguments.request_eq_ok_iff.1 hrequest
    refine ⟨Arguments.exists_spells hread,
      fun items hitems => Arguments.gained_of_request hitems hrequest, hsrc, hdest, ?_⟩
    intro bytes p q hready s capacity source
    have hs : s = a.settings zone := settings_eq a zone
    rw [hs]
    refine ⟨fun hgreat hroom => ?_, fun hbuffer => runCommand_empties hrequest hready hbuffer zone⟩
    obtain ⟨hruns, hcontents, hothers⟩ := runCommand_leaves hrequest hready hgreat hroom zone
    obtain ⟨hexit, hfiles⟩ := runCommand_again hrequest hready hgreat hroom zone
    exact ⟨hruns, hcontents, hothers, hexit, hfiles.contents?⟩

/-- A directory with a log of two events, the second one cut off, and a file from before. -/
def eventFiles : World where
  current := ["logs".toList]
  nodes := [(["logs".toList, "in".toList],
      .file (Text.toUtf8 ("\x7b\"sql\":\"a\",\"origin_time\":\"1\",\"thread_id\":\"7\"," ++
        "\"latency\":\"3\",\"db\":\"d\",\"user\":\"u\"\x7d\n\x7b\n").toList)),
    (["logs".toList, "out".toList], .file (Text.toUtf8 "old\n".toList))]
  memory := 1000000

def eventArguments (offset : String) : List Text :=
  [['-', 's'], "in".toList, "--dest=out".toList, "-vfrds-audit".toList, "--utc-offset".toList,
    offset.toList]

/-- An offset whose seconds leave the integers of 32 bits is neither read nor refused: the command
is stopped before it looks at any file. -/
theorem runCommand_overflowingOffset :
    let r := eventFiles.runCommand (.fixed 0) (eventArguments "+99999999")
    Offset.read "+99999999".toList = .error (.overflow .multiply) ∧ r.1 = .code 101 ∧
      r.2.contents? "out".toList = some (Text.toUtf8 "old\n".toList) := by
  decide +kernel

/-- The first event is written, the second one makes the command fail, and running it again makes no
difference. A format that there is not is refused. -/
theorem runCommand_converts_eventFiles :
    let args := eventArguments "+08:00"
    let r := eventFiles.runCommand (.fixed 0) args
    let r' := eventFiles.runCommand (.fixed 0) ["-fsyslog".toList, "--schema=s".toList]
    (∃ a, Arguments.request args = .ok (a, "in".toList, "out".toList)) ∧
      r.1 = .code 1 ∧ r.2.contents? "out".toList = some (Text.toUtf8
        ("\x7b\"convertSqlText\":\"a\",\"startTime\":1,\"session\":\"7\"," ++
          "\"execTime\":3,\"schema\":\"d\",\"user\":\"u\"\x7d\n").toList) ∧
      (r.2.runCommand (.fixed 0) args).2.contents? "out".toList = r.2.contents? "out".toList ∧
      r'.1 = .code 2 ∧ r'.2.nodes = eventFiles.nodes := by
  intro args r r'
  have hready : eventFiles.Ready "in".toList "out".toList
      (Text.toUtf8 ("\x7b\"sql\":\"a\",\"origin_time\":\"1\",\"thread_id\":\"7\"," ++
        "\"latency\":\"3\",\"db\":\"d\",\"user\":\"u\"\x7d\n\x7b\n").toList)
      ["logs".toList, "in".toList] ["logs".toList, "out".toList] :=
    ⟨by decide +kernel, rfl, by decide +kernel, .inr ⟨_, rfl⟩, by decide⟩
  have hrequest : Arguments.request args = .ok (
      { src := some "in".toList, dest := some "out".toList, format := some .serviceAudit,
        utcOffset := some 28800, switches := [.verbose] }, "in".toList, "out".toList) := by
    rfl
  obtain ⟨-, -, hconverts⟩ := runCommand_converts eventFiles (.fixed 0) args
  obtain ⟨-, -, -, -, hfiles⟩ := hconverts _ _ _ hrequest
  obtain ⟨hruns, hcontents, -, -, hagain⟩ := (hfiles _ _ _ hready).1 (by decide) (by decide)
  obtain ⟨-, hrefused, -⟩ := runCommand_converts eventFiles (.fixed 0)
    ["-fsyslog".toList, "--schema=s".toList]
  have hformat : Arguments.SpellsLetters [.value .format "syslog".toList] none "fsyslog".toList :=
    @Arguments.SpellsLetters.value 'f' .format rfl "syslog".toList (by decide)
  have hschema : Arguments.SpellsLong [.value .schema "s".toList] none "schema=s".toList :=
    @Arguments.SpellsLong.value "schema".toList .schema rfl "s".toList
  have hspells : Arguments.Spells none
      [.value .format "syslog".toList, .value .schema "s".toList]
      ["-fsyslog".toList, "--schema=s".toList] :=
    .letters hformat (.long hschema .nil)
  obtain ⟨hexit, hnodes⟩ := hrefused _ hspells (by decide) (by decide) (by simp)
    (.inl ⟨_, List.mem_cons_self, fun d => by cases d <;> decide⟩)
  exact ⟨⟨_, hrequest⟩, (hruns 1).1.trans (by decide +kernel), hcontents.trans (by decide +kernel),
    hagain _, hexit, hnodes⟩

end Commands

end World
end ReplayLog.Cli
