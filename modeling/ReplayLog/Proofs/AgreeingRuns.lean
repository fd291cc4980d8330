import ReplayLog.Conversion.Run

/-! # Runs that agree

Two sources whose entries have the same outcomes are converted alike, whatever the sink refuses: what
settling an outcome does depends on the writer and the layout alone, not on the lines read by then. -/
namespace ReplayLog.Progress

/-- The states differ at most in the number of lines. -/
structure Alike (p p' : Progress) : Prop where
  writer : p.writer = p'.writer
  seen : p.tally.seen = p'.tally.seen
  written : p.tally.written = p'.tally.written
  ignored : p.tally.ignored = p'.tally.ignored
  remarks : p.remarks = p'.remarks

def Agree (r r' : Result × Progress) : Prop := r.1 = r'.1 ∧ Alike r.2 r'.2

variable {p p' : Progress}

theorem Alike.settle (h : Alike p p') (l : Layout) (o : Outcome) :
    Agree (p.settle l o) (p'.settle l o) := by
  obtain ⟨tally, writer, remarks⟩ := p
  obtain ⟨tally', writer', remarks'⟩ := p'
  obtain ⟨rfl, hseen, hwritten, hignored, rfl⟩ := h
  dsimp only at hseen hwritten hignored
  cases o with
  | emit r =>
    rw [Progress.settle, Progress.settle]
    rcases writer.write l r with ⟨fault | -, writer⟩
    · exact ⟨rfl, rfl, congrArg (· + 1) hseen, hwritten, hignored, rfl⟩
    · exact ⟨rfl, rfl, congrArg (· + 1) hseen, congrArg (· + 1) hwritten, hignored, rfl⟩
  | ignore reason =>
    exact ⟨rfl, rfl, congrArg (· + 1) hseen, hwritten, congrArg (· + 1) hignored, rfl⟩
  | empty => exact ⟨rfl, rfl, hseen, hwritten, hignored, rfl⟩

section Feeds

variable {α β : Type} {c : Converter α} {c' : Converter β}

theorem Alike.take (h : Alike p p') (hlayout : c.layout = c'.layout) {a : Arrival α} {b : Arrival β}
    {o : Outcome} (ha : c.convert a.entry = .ok o) (hb : c'.convert b.entry = .ok o) :
    Agree (p.take c a) (p'.take c' b) := by
  have hat : Alike (p.atLine a.linesRead) (p'.atLine b.linesRead) :=
    ⟨h.writer, h.seen, h.written, h.ignored, h.remarks⟩
  rw [Progress.take, Progress.take, ha, hb, ← hlayout]
  exact hat.settle c.layout o

theorem Alike.takeAll (h : Alike p p') (hlayout : c.layout = c'.layout) {as : List (Arrival α)}
    {bs : List (Arrival β)} {outcomes : List Outcome}
    (has : (as.map Arrival.entry).map c.convert = outcomes.map .ok)
    (hbs : (bs.map Arrival.entry).map c'.convert = outcomes.map .ok) :
    Agree (p.takeAll c as) (p'.takeAll c' bs) := by
  induction outcomes generalizing as bs p p' with
  | nil =>
    have has : as = [] := by simpa using has
    have hbs : bs = [] := by simpa using hbs
    subst has hbs
    exact ⟨rfl, h⟩
  | cons o outcomes ih =>
    cases as with
    | nil => cases has
    | cons a as =>
      cases bs with
      | nil => cases hbs
      | cons b bs =>
        obtain ⟨ha, has⟩ := List.cons.inj has
        obtain ⟨hb, hbs⟩ := List.cons.inj hbs
        obtain ⟨hresult, halike⟩ := h.take hlayout ha hb
        rw [Progress.takeAll, Progress.takeAll]
        generalize p.take c a = step at hresult halike
        generalize p'.take c' b = step' at hresult halike
        obtain ⟨r, q⟩ := step
        obtain ⟨r', q'⟩ := step'
        dsimp only at hresult halike
        subst hresult
        cases r with
        | ok => exact ih halike has hbs
        | error stop => exact ⟨rfl, halike⟩

theorem Alike.close (h : Alike p p') (r : Result) :
    Agree (Progress.close (r, p)) (Progress.close (r, p')) := by
  obtain ⟨tally, writer, remarks⟩ := p
  obtain ⟨tally', writer', remarks'⟩ := p'
  obtain ⟨rfl, hseen, hwritten, hignored, rfl⟩ := h
  have hflushed (r : Result) (w : Writer) :
      Agree (r, ⟨tally, w, remarks⟩) (r, ⟨tally', w, remarks⟩) :=
    ⟨rfl, rfl, hseen, hwritten, hignored, rfl⟩
  unfold Progress.close
  rcases r with (f | overflow) | - <;> dsimp only
  · rcases writer.flush with ⟨fault | -, w⟩ <;> exact hflushed _ _
  · exact hflushed _ _
  · rcases writer.flush with ⟨fault | -, w⟩ <;> exact hflushed _ _

/-- Feeds whose entries have the same outcomes, and that end without an entry left open, are taken
alike. -/
theorem Alike.takeFeed (h : Alike p p') (hlayout : c.layout = c'.layout) {feed : Feed α}
    {feed' : Feed β} {preamble preamble' : Nat} (hending : feed.ending = .finished preamble none)
    (hending' : feed'.ending = .finished preamble' none) {outcomes : List Outcome}
    (hconvert : (feed.arrivals.map Arrival.entry).map c.convert = outcomes.map .ok)
    (hconvert' : (feed'.arrivals.map Arrival.entry).map c'.convert = outcomes.map .ok) :
    Agree (Progress.close (p.takeFeed c feed)) (Progress.close (p'.takeFeed c' feed')) := by
  obtain ⟨hresult, halike⟩ := h.takeAll hlayout hconvert hconvert'
  rw [Progress.takeFeed, Progress.takeFeed]
  generalize p.takeAll c feed.arrivals = taken at hresult halike
  generalize p'.takeAll c' feed'.arrivals = taken' at hresult halike
  obtain ⟨r, q⟩ := taken
  obtain ⟨r', q'⟩ := taken'
  dsimp only at hresult halike
  subst hresult
  cases r with
  | ok =>
    have hfinished : Alike (q.finish feed.linesRead (.finished preamble none)).2
        (q'.finish feed'.linesRead (.finished preamble' none)).2 :=
      ⟨halike.writer, halike.seen, halike.written, halike.ignored, halike.remarks⟩
    rw [hending, hending']
    exact hfinished.close (.ok ())
  | error stop => exact halike.close (.error stop)

end Feeds
end ReplayLog.Progress
