import MarketFeed.Proofs.Refusal

/-!
Frames handled one after another, whatever comes of each. The history of a feed lists the frames
that it took, with the events it published for them. What a sink does with the events has no
influence on it, so that the history can be read off the answers. `history_induction` carries a
property of histories and feeds through a whole run from what a single frame does.
-/
namespace MarketFeed.Feed

/-- A raw frame with the time of its receipt. -/
structure Arrival where
  raw : String
  receipt : UInt64

/-- A frame that was taken, with the events that were published for it. -/
structure Taken where
  frame : Frame
  emissions : List Emission

/-- A feed after a raw frame. -/
def after (f : Feed) (a : Arrival) : Feed := (f.handle a.raw a.receipt).1

def afterAll (f : Feed) (arrivals : List Arrival) : Feed := arrivals.foldl after f

def taken? (f : Feed) (a : Arrival) : Option Taken :=
  match Frame.decode a.raw, (f.handle a.raw a.receipt).2 with
  | .ok frame, .ok emissions => some ⟨frame, emissions⟩
  | _, _ => none

/-- The frames that a feed takes of those that arrive. -/
def history (f : Feed) : List Arrival → List Taken
  | [] => []
  | a :: rest => (f.taken? a).toList ++ (f.after a).history rest

/-- A raw frame leaves the feed as it was and no trace in the history, or it is taken. -/
theorem arrival_cases (f : Feed) (a : Arrival) :
    (f.after a = f ∧ f.taken? a = none ∧ ∃ e, f.handle a.raw a.receipt = (f, .error e)) ∨
    ∃ frame emissions, Frame.decode a.raw = .ok frame ∧
      f.taken? a = some ⟨frame, emissions⟩ ∧
      f.handle a.raw a.receipt = (f.after a, .ok emissions) ∧
      f.Takes a.receipt frame (f.after a) emissions := by
  rcases handle_cases f a.raw a.receipt with
    ⟨e, hread⟩ | ⟨frame, e, hread, hrefuses⟩ | ⟨frame, f', emissions, hread, htakes⟩
  · have hhandle := handle_of_error f a.receipt hread
    left
    refine ⟨by simp [after, hhandle], by simp [taken?, hread], e, hhandle⟩
  · have hhandle := handle_of_refuses a.receipt hread hrefuses
    left
    refine ⟨by simp [after, hhandle], by simp [taken?, hread, hhandle], e, hhandle⟩
  · have hhandle := handle_of_takes hread htakes
    have hafter : f.after a = f' := by simp [after, hhandle]
    right
    refine ⟨frame, emissions, hread, by simp [taken?, hread, hhandle], ?_, ?_⟩
    · rw [hhandle, hafter]
    · rw [hafter]
      exact htakes

/-- What holds at the start and is kept by every frame that is taken holds after every run. -/
theorem history_induction {motive : List Taken → Feed → Prop} (f : Feed) (start : motive [] f)
    (step : ∀ past g receipt frame g' emissions, motive past g →
      g.Takes receipt frame g' emissions → motive (past ++ [⟨frame, emissions⟩]) g')
    (arrivals : List Arrival) : motive (f.history arrivals) (f.afterAll arrivals) := by
  have along : ∀ (arrivals : List Arrival) (past : List Taken) (g : Feed), motive past g →
      motive (past ++ g.history arrivals) (g.afterAll arrivals) := by
    intro arrivals
    induction arrivals with
    | nil =>
      intro past g h
      simpa [history, afterAll] using h
    | cons a rest ih =>
      intro past g h
      rcases arrival_cases g a with ⟨hsame, hnone, -⟩ | ⟨frame, emissions, -, hsome, -, htakes⟩
      · simpa [history, afterAll, hnone, hsame] using ih past g h
      · have h' := ih _ _ (step past g a.receipt frame (g.after a) emissions h htakes)
        simpa [history, afterAll, hsome] using h'
  simpa using along arrivals [] f start

variable {σ : Type}

/-- A raw frame together with what the feed and the sink are like when it comes. -/
structure Turn (σ : Type) where
  feed : Feed
  kept : σ
  arrival : Arrival

namespace Turn

/-- What the feed and the sink are like after the frame, and the answer to it. -/
def result (sink : Sink σ) (t : Turn σ) : Feed × σ × Except Error Unit :=
  t.feed.handleWith sink t.kept t.arrival.raw t.arrival.receipt

/-- Success, or a failure for no other reason than that the sink refused an event. -/
def Accepted (sink : Sink σ) (t : Turn σ) : Prop :=
  (t.result sink).2.2.isOk = true ∨
    ∃ emissions e, (t.feed.handle t.arrival.raw t.arrival.receipt).2 = .ok emissions ∧
      (sink.deliver t.kept emissions).2 = .error e

theorem accepted_iff (sink : Sink σ) (t : Turn σ) :
    t.Accepted sink ↔ (t.feed.taken? t.arrival).isSome = true := by
  rcases arrival_cases t.feed t.arrival with
    ⟨-, hnone, e, hhandle⟩ | ⟨frame, emissions, -, hsome, hhandle, -⟩
  · have hresult := (handleWith_of_error hhandle sink t.kept).1
    simp [Accepted, result, hresult, hhandle, hnone, Except.isOk, Except.toBool]
  · have hresult := (handleWith_of_ok hhandle sink t.kept).1
    simp only [Accepted, result, hresult, hhandle, hsome, Option.isSome_some, iff_true]
    cases hdeliver : (sink.deliver t.kept emissions).2 with
    | ok _ => exact Or.inl rfl
    | error e => exact Or.inr ⟨emissions, e, rfl, hdeliver⟩

instance (sink : Sink σ) (t : Turn σ) : Decidable (t.Accepted sink) :=
  decidable_of_iff _ (accepted_iff sink t).symm

end Turn

/-- The turns of frames that come one after another. -/
def turns (sink : Sink σ) (f : Feed) (s : σ) : List Arrival → List (Turn σ)
  | [] => []
  | a :: rest =>
    let t : Turn σ := { feed := f, kept := s, arrival := a }
    t :: turns sink (t.result sink).1 (t.result sink).2.1 rest

/-- What the feed and the sink are like after frames that came one after another. -/
def handleAll (sink : Sink σ) (f : Feed) (s : σ) : List Arrival → Feed × σ
  | [] => (f, s)
  | a :: rest =>
    let t : Turn σ := { feed := f, kept := s, arrival := a }
    handleAll sink (t.result sink).1 (t.result sink).2.1 rest

/-- The accepted ones of the frames that come. -/
def acceptedFrames (sink : Sink σ) (f : Feed) (s : σ) (arrivals : List Arrival) : List Frame :=
  (turns sink f s arrivals).filterMap fun t =>
    if t.Accepted sink then (Frame.decode t.arrival.raw).toOption else none

/-- Those of the frames that come that are answered with success. -/
def successes (sink : Sink σ) (f : Feed) (s : σ) (arrivals : List Arrival) : List Frame :=
  (turns sink f s arrivals).filterMap fun t =>
    if (t.result sink).2.2.isOk = true then (Frame.decode t.arrival.raw).toOption else none

/-- The events of all frames that come, as far as they reach the sink. -/
def received (sink : Sink σ) (f : Feed) (s : σ) (arrivals : List Arrival) : List Emission :=
  (turns sink f s arrivals).flatMap fun t =>
    t.feed.offered sink t.kept t.arrival.raw t.arrival.receipt

/-- What the feed and the sink are like after whole sessions, each of them started anew. -/
def sessions (sink : Sink σ) (f : Feed) (s : σ) : List (List Arrival) → Feed × σ
  | [] => (f, s)
  | arrivals :: rest =>
    let done := handleAll sink f.beginSession s arrivals
    sessions sink done.1 done.2 rest

/-- A sink that refuses nothing. -/
def Sink.TakesAll (sink : Sink σ) : Prop := ∀ s e, ∃ s', sink s e = .ok s'

theorem logSink_takesAll : logSink.TakesAll := fun _ _ => ⟨_, rfl⟩

theorem Sink.TakesAll.deliver_eq_ok {sink : Sink σ} (hsink : sink.TakesAll) (s : σ)
    (emissions : List Emission) : (sink.deliver s emissions).2 = .ok () := by
  induction emissions generalizing s with
  | nil => rfl
  | cons e rest ih =>
    obtain ⟨s', htaken⟩ := hsink s e
    simp only [Sink.deliver, htaken]
    exact ih s'

theorem Sink.TakesAll.offered_eq {sink : Sink σ} (hsink : sink.TakesAll) (s : σ)
    (emissions : List Emission) : sink.offered s emissions = emissions := by
  induction emissions generalizing s with
  | nil => rfl
  | cons e rest ih =>
    obtain ⟨s', htaken⟩ := hsink s e
    simp only [Sink.offered, htaken]
    rw [ih s']

theorem result_feed (sink : Sink σ) (t : Turn σ) :
    (t.result sink).1 = t.feed.after t.arrival := by
  rcases arrival_cases t.feed t.arrival with
    ⟨hsame, -, e, hhandle⟩ | ⟨frame, emissions, -, -, hhandle, -⟩
  · rw [hsame, Turn.result, (handleWith_of_error hhandle sink t.kept).1]
  · rw [Turn.result, (handleWith_of_ok hhandle sink t.kept).1]

theorem handleAll_feed (sink : Sink σ) (f : Feed) (s : σ) (arrivals : List Arrival) :
    (handleAll sink f s arrivals).1 = f.afterAll arrivals := by
  induction arrivals generalizing f s with
  | nil => rfl
  | cons a rest ih =>
    rw [handleAll, ih, result_feed]
    rfl

/-- The accepted frames are those of the history. -/
theorem acceptedFrames_eq (sink : Sink σ) (f : Feed) (s : σ) (arrivals : List Arrival) :
    acceptedFrames sink f s arrivals = (f.history arrivals).map (·.frame) := by
  induction arrivals generalizing f s with
  | nil => rfl
  | cons a rest ih =>
    have htail := ih (f.after a) (Turn.result sink ⟨f, s, a⟩).2.1
    rw [acceptedFrames] at htail
    simp only [acceptedFrames, turns, List.filterMap_cons, Turn.accepted_iff, result_feed]
      at htail ⊢
    rcases arrival_cases f a with ⟨-, hnone, -⟩ | ⟨frame, emissions, hread, hsome, -, -⟩
    · simp [history, hnone, htail]
    · have hframe : (Frame.decode a.raw).toOption = some frame := by rw [hread]; rfl
      simp [history, hsome, hframe, htail]

theorem successes_eq {sink : Sink σ} (hsink : sink.TakesAll) (f : Feed) (s : σ)
    (arrivals : List Arrival) :
    successes sink f s arrivals = (f.history arrivals).map (·.frame) := by
  rw [← acceptedFrames_eq sink f s arrivals, successes, acceptedFrames]
  refine congrArg (List.filterMap · (turns sink f s arrivals)) (funext fun t => ?_)
  have hiff : (t.result sink).2.2.isOk = true ↔ t.Accepted sink := by
    constructor
    · exact Or.inl
    · rintro (hok | ⟨emissions, e, -, hfail⟩)
      · exact hok
      · rw [hsink.deliver_eq_ok t.kept emissions] at hfail
        cases hfail
  simp only [hiff]

/-- A sink that refuses nothing receives the events of the frames that were taken. -/
theorem received_eq {sink : Sink σ} (hsink : sink.TakesAll) (f : Feed) (s : σ)
    (arrivals : List Arrival) :
    received sink f s arrivals = (f.history arrivals).flatMap (·.emissions) := by
  induction arrivals generalizing f s with
  | nil => rfl
  | cons a rest ih =>
    have htail := ih (f.after a) (Turn.result sink ⟨f, s, a⟩).2.1
    rw [received] at htail
    simp only [received, turns, List.flatMap_cons, result_feed] at htail ⊢
    rw [htail]
    rcases arrival_cases f a with
      ⟨-, hnone, e, hhandle⟩ | ⟨frame, emissions, -, hsome, hhandle, -⟩
    · simp [history, hnone, (handleWith_of_error hhandle sink s).2]
    · simp [history, hsome, (handleWith_of_ok hhandle sink s).2, hsink.offered_eq]

end MarketFeed.Feed
