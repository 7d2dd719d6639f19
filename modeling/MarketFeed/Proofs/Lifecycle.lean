import Mathlib
import MarketFeed.Feed.Session
import MarketFeed.Proofs.History
import MarketFeed.Transport.Script

/-!
The life of a session. `Follows` lists what a session can do with what its stream brings: a frame
that is handled or dropped keeps it going, and anything else ends it. From this follows how a session
ends: always with an error, with the stream closed, in a phase that tells the cause, and with the
numbers and books that its own frames make out of none.
-/
namespace MarketFeed.Feed

open Transport (Stream Script)

variable {σ κ : Type}

/-- A stream that acts out a script. What was written to it and which frames are still to come can
be read off its state; an attempt to open it that fails leaves it closed; waiting for what comes is
never given up. -/
structure Scripted (stream : Stream σ) where
  written : σ → List String
  coming : σ → List Arrival
  close_closed : ∀ s, stream.isOpen (stream.close s) = false
  close_written : ∀ s, written (stream.close s) = written s
  close_coming : ∀ s, coming (stream.close s) = coming s
  connect_closed : ∀ s e, (stream.connect s).2 = .error e →
    stream.isOpen (stream.connect s).1 = false
  connect_same : ∀ s, stream.id (stream.connect s).1 = stream.id s ∧
    written (stream.connect s).1 = written s ∧ coming (stream.connect s).1 = coming s
  write_coming : ∀ s text, coming (stream.write s text).1 = coming s
  write_written : ∀ s text, written (stream.write s text).1 =
    written s ++ if (stream.write s text).2.isOk then [text] else []
  receive_written : ∀ s received s', stream.receive s = (received, s') → written s' = written s
  receive_coming : ∀ s received s', stream.receive s = (received, s') →
    match received with
    | .frame text receipt => coming s = ⟨text, receipt⟩ :: coming s'
    | .ended | .failed _ => coming s' = coming s
    | .interrupted => False

/-- The kinds of error that end a session. -/
def Error.endsSession : Error → Bool
  | gap .. | missingSnapshot _ | channel _ | sinkClosed _ => true
  | malformed _ | unknownSymbol _ | payload | configuration _ => false

/-- A feed that has just subscribed: nothing is left in it of earlier sessions. -/
def fresh (f : Feed) : Feed :=
  { symbols := f.symbols, subscription := f.subscription, phase := .streaming }

namespace Setup

def turn (x : Setup σ κ) (a : Arrival) : Turn κ :=
  { feed := x.feed, kept := x.sink, arrival := a }

/-- A setup after a frame, which left its stream in a state. -/
def next (sink : Sink κ) (x : Setup σ κ) (a : Arrival) (s : σ) : Setup σ κ :=
  { feed := ((x.turn a).result sink).1, stream := s, sink := ((x.turn a).result sink).2.1 }

/-- Whether a stream that is not open cannot be opened. -/
def OpenFails (stream : Stream σ) (x : Setup σ κ) : Prop :=
  stream.isOpen x.stream = false ∧ ∃ e, (stream.connect x.stream).2 = .error e

/-- The state of a stream that is open already or has been opened. -/
def opened (stream : Stream σ) (x : Setup σ κ) : σ :=
  if stream.isOpen x.stream then x.stream else (stream.connect x.stream).1

/-- A session that follows its stream to the end, with the frames that come on the way. -/
inductive Follows (stream : Stream σ) (sink : Sink κ) :
    Setup σ κ → List Arrival → Setup σ κ × Ending → Prop
  | interrupted (x : Setup σ κ) (s : σ)
      (hreceive : stream.receive x.stream = (.interrupted, s)) :
      Follows stream sink x [] ({ x with stream := s }, .interrupted)
  | ended (x : Setup σ κ) (s : σ) (hreceive : stream.receive x.stream = (.ended, s)) :
      Follows stream sink x []
        (finish stream { x with stream := s } (.channel (.closed (stream.id s))))
  | failed (x : Setup σ κ) (s : σ) (e : Transport.Error)
      (hreceive : stream.receive x.stream = (.failed e, s)) :
      Follows stream sink x [] (finish stream { x with stream := s } (.channel e))
  | stopped (x : Setup σ κ) (a : Arrival) (s : σ) (e : Error)
      (hreceive : stream.receive x.stream = (.frame a.raw a.receipt, s))
      (herror : ((x.turn a).result sink).2.2 = .error e) (hstops : e.isDropped = false) :
      Follows stream sink x [a] (finish stream (x.next sink a s) e)
  | goesOn (x : Setup σ κ) (a : Arrival) (s : σ) (rest : List Arrival)
      (r : Setup σ κ × Ending)
      (hreceive : stream.receive x.stream = (.frame a.raw a.receipt, s))
      (hgoes : ∀ e, ((x.turn a).result sink).2.2 = .error e → e.isDropped = true)
      (hrest : Follows stream sink (x.next sink a s) rest r) :
      Follows stream sink x (a :: rest) r

theorem follow_follows (stream : Stream σ) (sink : Sink κ) (x : Setup σ κ) :
    ∃ came, Follows stream sink x came (x.follow stream sink) := by
  fun_induction follow stream sink x with
  | case1 x s hreceive => exact ⟨[], .interrupted x s hreceive⟩
  | case2 x s hreceive => exact ⟨[], .ended x s hreceive⟩
  | case3 x e s hreceive => exact ⟨[], .failed x s e hreceive⟩
  | case4 x text receipt s hreceive hpending feed kept hhandled ih =>
    obtain ⟨rest, hrest⟩ := ih
    have hresult : (x.turn ⟨text, receipt⟩).result sink = (feed, kept, .ok ()) := hhandled
    refine ⟨⟨text, receipt⟩ :: rest, .goesOn x _ s rest _ hreceive ?_ ?_⟩
    · intro e he
      rw [hresult] at he
      cases he
    · rw [next, hresult]
      exact hrest
  | case5 x text receipt s hreceive hpending feed kept e hhandled hdropped ih =>
    obtain ⟨rest, hrest⟩ := ih
    have hresult : (x.turn ⟨text, receipt⟩).result sink = (feed, kept, .error e) := hhandled
    refine ⟨⟨text, receipt⟩ :: rest, .goesOn x _ s rest _ hreceive ?_ ?_⟩
    · intro e' he
      rw [hresult] at he
      cases he
      exact hdropped
    · rw [next, hresult]
      exact hrest
  | case6 x text receipt s hreceive hpending feed kept e hhandled hstops =>
    have hresult : (x.turn ⟨text, receipt⟩).result sink = (feed, kept, .error e) := hhandled
    have hend := Follows.stopped x ⟨text, receipt⟩ s e hreceive (congrArg (·.2.2) hresult)
      (Bool.eq_false_iff.mpr hstops)
    rw [next, hresult] at hend
    exact ⟨[⟨text, receipt⟩], hend⟩

variable {stream : Stream σ} {sink : Sink κ} {x : Setup σ κ} {came : List Arrival}
  {r : Setup σ κ × Ending}

theorem next_feed (sink : Sink κ) (x : Setup σ κ) (a : Arrival) (s : σ) :
    (x.next sink a s).feed = x.feed.after a :=
  result_feed sink (x.turn a)

/-- The numbers and books at the end are made by the frames that came. -/
theorem Follows.feed_eq (h : Follows stream sink x came r) :
    r.1.feed.guard = (x.feed.afterAll came).guard ∧
      r.1.feed.books = (x.feed.afterAll came).books := by
  induction h with
  | interrupted x s hreceive => exact ⟨rfl, rfl⟩
  | ended x s hreceive => exact ⟨rfl, rfl⟩
  | failed x s e hreceive => exact ⟨rfl, rfl⟩
  | stopped x a s e hreceive herror hstops =>
    have hguard : (x.next sink a s).feed.guard = (x.feed.after a).guard := by rw [next_feed]
    have hbooks : (x.next sink a s).feed.books = (x.feed.after a).books := by rw [next_feed]
    exact ⟨hguard, hbooks⟩
  | goesOn x a s rest r hreceive hgoes hrest ih =>
    rw [next_feed] at ih
    exact ih

/-- The frames that came are those that a script brought, and nothing more was written. -/
theorem Follows.stream_eq (script : Scripted stream) (h : Follows stream sink x came r) :
    script.coming x.stream = came ++ script.coming r.1.stream ∧
      script.written r.1.stream = script.written x.stream := by
  induction h with
  | interrupted x s hreceive => exact (script.receive_coming _ _ _ hreceive).elim
  | ended x s hreceive =>
    have hcoming : script.coming s = script.coming x.stream := script.receive_coming _ _ _ hreceive
    have hwritten := script.receive_written _ _ _ hreceive
    exact ⟨((script.close_coming s).trans hcoming).symm, (script.close_written s).trans hwritten⟩
  | failed x s e hreceive =>
    have hcoming : script.coming s = script.coming x.stream := script.receive_coming _ _ _ hreceive
    have hwritten := script.receive_written _ _ _ hreceive
    exact ⟨((script.close_coming s).trans hcoming).symm, (script.close_written s).trans hwritten⟩
  | stopped x a s e hreceive herror hstops =>
    have hcoming : script.coming x.stream = a :: script.coming s :=
      script.receive_coming _ _ _ hreceive
    have hwritten := script.receive_written _ _ _ hreceive
    exact ⟨hcoming.trans (congrArg (a :: ·) (script.close_coming s).symm),
      (script.close_written s).trans hwritten⟩
  | goesOn x a s rest r hreceive hgoes hrest ih =>
    have hcoming : script.coming x.stream = a :: script.coming s :=
      script.receive_coming _ _ _ hreceive
    have hwritten := script.receive_written _ _ _ hreceive
    obtain ⟨hcoming', hwritten'⟩ := ih
    exact ⟨hcoming.trans (congrArg (a :: ·) hcoming'), hwritten'.trans hwritten⟩

/-- An error that a sink which fails only when closed does not excuse as dropped ends a session. -/
theorem endsSession_of_error (hsink : sink.FailsClosed) {a : Arrival} {e : Error}
    (herror : ((x.turn a).result sink).2.2 = .error e) (hstops : e.isDropped = false) :
    e.endsSession = true := by
  cases hhandle : x.feed.handle a.raw a.receipt with
  | mk f' answer =>
    cases answer with
    | error e' =>
      have hresult : (x.turn a).result sink = (f', x.sink, .error e') :=
        (handleWith_of_error hhandle sink x.sink).1
      rw [hresult] at herror
      cases herror
      have hrefusal := isRefusal_of_handle hhandle
      cases e <;> simp_all [Error.isRefusal, Error.isDropped, Error.endsSession]
    | ok emissions =>
      have hresult : (x.turn a).result sink = (f', sink.deliver x.sink emissions) :=
        (handleWith_of_ok hhandle sink x.sink).1
      rw [hresult] at herror
      obtain ⟨reason, rfl⟩ := hsink.sinkClosed_of_deliver x.sink emissions e herror
      rfl

/-- The phase that tells the cause of an end. -/
def endPhase (e : Error) : Phase := if e.requiresResync then .gap else .connectionLost

/-- A session that follows a script ends with an error, its stream closed. -/
theorem Follows.ends (script : Scripted stream) (hsink : sink.FailsClosed)
    (h : Follows stream sink x came r) :
    ∃ e, r.2 = .failed e ∧ e.endsSession = true ∧ stream.isOpen r.1.stream = false ∧
      r.1.feed.phase = endPhase e := by
  induction h with
  | interrupted x s hreceive => exact (script.receive_coming _ _ _ hreceive).elim
  | ended x s hreceive => exact ⟨_, rfl, rfl, script.close_closed s, rfl⟩
  | failed x s e hreceive => exact ⟨_, rfl, rfl, script.close_closed s, rfl⟩
  | stopped x a s e hreceive herror hstops =>
    exact ⟨e, rfl, endsSession_of_error hsink herror hstops, script.close_closed s, rfl⟩
  | goesOn x a s rest r hreceive hgoes hrest ih => exact ih

theorem run_of_openFails (sink : Sink κ) (h : x.OpenFails stream) :
    ∃ e, x.run stream sink =
      ({ x with feed := { x.feed with phase := .disconnected },
                stream := (stream.connect x.stream).1 }, .failed (.channel e)) := by
  obtain ⟨hclosed, e, herror⟩ := h
  refine ⟨e, ?_⟩
  cases hconnect : stream.connect x.stream with
  | mk s answer =>
    rw [hconnect] at herror
    cases herror
    simp [run, hclosed, hconnect]

theorem run_of_not_openFails (h : ¬ x.OpenFails stream) :
    x.run stream sink =
      match x.feed.beginSession.subscribe stream (x.opened stream) with
      | (s, .error e) => finish stream { x with feed := x.feed.beginSession, stream := s } e
      | (s, .ok _) => follow stream sink { x with feed := x.feed.fresh, stream := s } := by
  cases hopen : stream.isOpen x.stream with
  | true =>
    simp only [run, opened, hopen]
    rfl
  | false =>
    cases hconnect : stream.connect x.stream with
    | mk s answer =>
      cases answer with
      | error e => exact absurd ⟨hopen, e, congrArg Prod.snd hconnect⟩ h
      | ok _ =>
        simp only [run, opened, hopen, hconnect]
        rfl

end Setup

/-- A feed that could be made never fails to write its requests down. -/
theorem subscribeFrames_of_make {f made : Feed}
    (hmade : Feed.make f.symbols f.subscription = .ok made) (id : String) :
    ∃ frames, f.subscribeFrames id = .ok frames := by
  cases hrequests : requests f.symbols f.subscription with
  | error e =>
    unfold Feed.make at hmade
    split at hmade
    · cases hmade
    · rw [hrequests] at hmade
      cases hmade
  | ok pairs => exact ⟨_, by rw [subscribeFrames, hrequests]; rfl⟩

theorem Scripted.writeAll_eq {stream : Stream σ} (script : Scripted stream) (s : σ)
    (texts : List String) :
    script.coming (stream.writeAll s texts).1 = script.coming s ∧
      ∃ n, script.written (stream.writeAll s texts).1 = script.written s ++ texts.take n ∧
        ((stream.writeAll s texts).2 = .ok () → n = texts.length) := by
  induction texts generalizing s with
  | nil => exact ⟨rfl, 0, by simp [Stream.writeAll], fun _ => rfl⟩
  | cons text rest ih =>
    have hcoming := script.write_coming s text
    have hwritten := script.write_written s text
    cases hwrite : stream.write s text with
    | mk s' answer =>
      rw [hwrite] at hcoming hwritten
      cases answer with
      | ok _ =>
        obtain ⟨hcoming', n, hwritten', hall⟩ := ih s'
        simp only [Stream.writeAll, hwrite]
        refine ⟨hcoming'.trans hcoming, n + 1, ?_, fun hok => ?_⟩
        · rw [hwritten', hwritten]
          simp [Except.isOk, Except.toBool]
        · rw [hall hok, List.length_cons]
      | error e =>
        simp only [Stream.writeAll, hwrite]
        refine ⟨hcoming, 0, ?_, fun hok => ?_⟩
        · rw [hwritten]
          simp [Except.isOk, Except.toBool]
        · cases hok

/-- A feed that can write its requests down sends them all, or as many as the stream takes. -/
theorem Scripted.subscribe_cases {stream : Stream σ} (script : Scripted stream) {f : Feed} {s : σ}
    {frames : List String} (hframes : f.subscribeFrames (stream.id s) = .ok frames) :
    ∃ s' n, script.coming s' = script.coming s ∧
      script.written s' = script.written s ++ frames.take n ∧
      ((f.subscribe stream s = (s', .ok frames.length) ∧ n = frames.length) ∨
        ∃ e, f.subscribe stream s = (s', .error (.channel e))) := by
  obtain ⟨hcoming, n, hwritten, hall⟩ := script.writeAll_eq s frames
  cases hwrite : stream.writeAll s frames with
  | mk s' answer =>
    rw [hwrite] at hcoming hwritten hall
    refine ⟨s', n, hcoming, hwritten, ?_⟩
    cases answer with
    | ok _ =>
      left
      refine ⟨?_, hall rfl⟩
      simp only [subscribe, hframes, hwrite]
    | error e =>
      right
      refine ⟨e, ?_⟩
      simp only [subscribe, hframes, hwrite]

namespace Setup

variable {stream : Stream σ} {sink : Sink κ} {x : Setup σ κ}

theorem opened_eq (script : Scripted stream) (x : Setup σ κ) :
    stream.id (x.opened stream) = stream.id x.stream ∧
      script.written (x.opened stream) = script.written x.stream ∧
      script.coming (x.opened stream) = script.coming x.stream := by
  unfold opened
  split
  · exact ⟨rfl, rfl, rfl⟩
  · exact script.connect_same x.stream

/-- What a session that began with one setup leaves behind: the setup that it ended with, its error
and the frames that came in it. -/
structure Over (script : Scripted stream) (x y : Setup σ κ) (e : Error) (came : List Arrival) :
    Prop where
  kind : e.endsSession = true
  closed : stream.isOpen y.stream = false
  disconnected : y.feed.phase = .disconnected ↔ x.OpenFails stream
  gap : y.feed.phase = .gap ↔ e.requiresResync = true
  lost : y.feed.phase = .connectionLost ↔ ¬ x.OpenFails stream ∧ e.requiresResync = false
  untouched : x.OpenFails stream → y.feed.guard = x.feed.guard ∧ y.feed.books = x.feed.books ∧
    script.written y.stream = script.written x.stream
  read : script.coming x.stream = came ++ script.coming y.stream
  subscribed : ∃ frames n, x.feed.subscribeFrames (stream.id x.stream) = .ok frames ∧
    script.written y.stream = script.written x.stream ++ frames.take n ∧
    (came ≠ [] → n = frames.length)
  fresh : ¬ x.OpenFails stream → y.feed.guard = (x.feed.fresh.afterAll came).guard ∧
    y.feed.books = (x.feed.fresh.afterAll came).books

theorem endPhase_cases (e : Error) :
    (endPhase e = .gap ∧ e.requiresResync = true) ∨
      (endPhase e = .connectionLost ∧ e.requiresResync = false) := by
  unfold endPhase
  cases e.requiresResync with
  | true => exact Or.inl ⟨rfl, rfl⟩
  | false => exact Or.inr ⟨rfl, rfl⟩

/-- Once the stream is open, the phase at the end is that of the error. -/
theorem phase_of_endPhase {phase : Phase} {e : Error} (hphase : phase = endPhase e)
    (hopens : ¬ x.OpenFails stream) :
    (phase = .disconnected ↔ x.OpenFails stream) ∧ (phase = .gap ↔ e.requiresResync = true) ∧
      (phase = .connectionLost ↔ ¬ x.OpenFails stream ∧ e.requiresResync = false) := by
  rcases endPhase_cases e with ⟨hend, hresync⟩ | ⟨hend, hresync⟩
  · simp [hphase, hend, hresync, hopens]
  · simp [hphase, hend, hresync, hopens]

theorem over_of_openFails (script : Scripted stream) (sink : Sink κ) {frames : List String}
    (hframes : x.feed.subscribeFrames (stream.id x.stream) = .ok frames)
    (hfails : x.OpenFails stream) :
    ∃ e, (x.run stream sink).2 = .failed e ∧ x.Over script (x.run stream sink).1 e [] := by
  obtain ⟨e, hrun⟩ := run_of_openFails sink hfails
  obtain ⟨-, hwritten, hcoming⟩ := script.connect_same x.stream
  obtain ⟨-, e', herror⟩ := id hfails
  rw [hrun]
  refine ⟨.channel e, rfl, ?_⟩
  exact {
    kind := rfl
    closed := script.connect_closed x.stream e' herror
    disconnected := by simp [hfails]
    gap := by simp [Error.requiresResync]
    lost := by simp [hfails]
    untouched := fun _ => ⟨rfl, rfl, hwritten⟩
    read := hcoming.symm
    subscribed := ⟨frames, 0, hframes, by simpa using hwritten, fun h => absurd rfl h⟩
    fresh := fun hopens => absurd hfails hopens }

theorem over_of_opens (script : Scripted stream) (hsink : sink.FailsClosed) {frames : List String}
    (hframes : x.feed.subscribeFrames (stream.id x.stream) = .ok frames)
    (hopens : ¬ x.OpenFails stream) :
    ∃ e came, (x.run stream sink).2 = .failed e ∧ x.Over script (x.run stream sink).1 e came := by
  obtain ⟨hid, hwritten, hcoming⟩ := opened_eq script x
  have hrequests : x.feed.beginSession.subscribeFrames (stream.id (x.opened stream)) =
      .ok frames := by
    rw [hid]
    exact hframes
  obtain ⟨s, n, hcoming', hwritten', hsubscribe⟩ := script.subscribe_cases hrequests
  rw [hcoming] at hcoming'
  rw [hwritten] at hwritten'
  rw [run_of_not_openFails hopens]
  rcases hsubscribe with ⟨hsubscribe, hall⟩ | ⟨e, hsubscribe⟩
  · rw [hsubscribe]
    obtain ⟨came, hfollows⟩ :=
      follow_follows stream sink { x with feed := x.feed.fresh, stream := s }
    obtain ⟨e, hending, hkind, hclosed, hphase⟩ := hfollows.ends script hsink
    obtain ⟨hread, hquiet⟩ := hfollows.stream_eq script
    obtain ⟨hdisconnected, hgap, hlost⟩ := phase_of_endPhase hphase hopens
    refine ⟨e, came, hending, ?_⟩
    exact {
      kind := hkind
      closed := hclosed
      disconnected := hdisconnected
      gap := hgap
      lost := hlost
      untouched := fun hfails => absurd hfails hopens
      read := hcoming'.symm.trans hread
      subscribed := ⟨frames, n, hframes, hquiet.trans hwritten', fun _ => hall⟩
      fresh := fun _ => hfollows.feed_eq }
  · rw [hsubscribe]
    obtain ⟨hdisconnected, hgap, hlost⟩ :=
      phase_of_endPhase (Eq.refl (endPhase (.channel e))) hopens
    refine ⟨.channel e, [], rfl, ?_⟩
    exact {
      kind := rfl
      closed := script.close_closed s
      disconnected := hdisconnected
      gap := hgap
      lost := hlost
      untouched := fun hfails => absurd hfails hopens
      read := (hcoming'.symm.trans (script.close_coming s).symm)
      subscribed := ⟨frames, n, hframes, (script.close_written s).trans hwritten',
        fun h => absurd rfl h⟩
      fresh := fun _ => ⟨rfl, rfl⟩ }

end Setup

/-- A session on a scripted stream ends with an error of a connection, of a sink, of numbers or of a
missing book, whatever earlier sessions left of the feed. Its stream is closed then, its phase tells
whether opening failed and whether a fresh start is due, frames were read only after all requests
had been written, and numbers and books are those that the frames of this session make. -/
theorem session_ends {stream : Stream σ} (script : Scripted stream) {sink : Sink κ}
    (hsink : sink.FailsClosed) (x : Setup σ κ) (made : Feed)
    (hmade : Feed.make x.feed.symbols x.feed.subscription = .ok made) :
    ∃ e came, (x.run stream sink).2 = .failed e ∧ x.Over script (x.run stream sink).1 e came := by
  obtain ⟨frames, hframes⟩ := subscribeFrames_of_make hmade (stream.id x.stream)
  by_cases hfails : x.OpenFails stream
  · obtain ⟨e, hending, hover⟩ := Setup.over_of_openFails script sink hframes hfails
    exact ⟨e, [], hending, hover⟩
  · exact Setup.over_of_opens script hsink hframes hfails

/-- The frames of a script with the times of their receipt. -/
def played (step : Nat) : (clock : Nat) → List Transport.Arrival → List Arrival
  | _, [] => []
  | clock, .frame text :: rest => ⟨text, UInt64.ofNat clock⟩ :: played step (clock + step) rest
  | clock, .failure _ :: rest | clock, .ended :: rest => played step clock rest

theorem script_connect_cases (s : Script) :
    (∃ e, s.connect = (s, .error e) ∧ s.isOpen = false) ∨
      ∃ s', s.connect = (s', .ok ()) ∧ s'.id = s.id ∧ s'.written = s.written ∧
        s'.clock = s.clock ∧ s'.clockStep = s.clockStep ∧ s'.arrivals = s.arrivals := by
  unfold Script.connect
  split
  · exact Or.inr ⟨s, rfl, rfl, rfl, rfl, rfl, rfl⟩
  · next hopen =>
    split
    · next e _ => exact Or.inl ⟨e, rfl, Bool.eq_false_iff.mpr hopen⟩
    · exact Or.inr ⟨_, rfl, rfl, rfl, rfl, rfl, rfl⟩

theorem script_write_cases (s : Script) (text : String) :
    (∃ e, s.write text = (s, .error e)) ∨
      ∃ s', s.write text = (s', .ok ()) ∧ s'.written = s.written ++ [text] ∧
        s'.clock = s.clock ∧ s'.clockStep = s.clockStep ∧ s'.arrivals = s.arrivals := by
  unfold Script.write
  split
  · exact Or.inl ⟨_, rfl⟩
  · split
    · exact Or.inl ⟨_, rfl⟩
    · exact Or.inr ⟨_, rfl, rfl, rfl, rfl, rfl⟩

/-- A script is acted out by its stream. -/
def scripted : Scripted Script.stream where
  written := Script.written
  coming s := played s.clockStep s.clock s.arrivals
  close_closed _ := rfl
  close_written _ := rfl
  close_coming _ := rfl
  connect_closed s e herror := by
    rcases script_connect_cases s with ⟨e', hconnect, hclosed⟩ | ⟨s', hconnect, -⟩
    · have hsame : (Script.stream.connect s).1 = s := congrArg Prod.fst hconnect
      rw [hsame]
      exact hclosed
    · have hok : (Script.stream.connect s).2 = .ok () := congrArg Prod.snd hconnect
      rw [hok] at herror
      cases herror
  connect_same s := by
    rcases script_connect_cases s with
      ⟨e', hconnect, hclosed⟩ | ⟨s', hconnect, hid, hwritten, hclock, hstep, harrivals⟩
    · have hsame : (Script.stream.connect s).1 = s := congrArg Prod.fst hconnect
      rw [hsame]
      exact ⟨rfl, rfl, rfl⟩
    · have hafter : (Script.stream.connect s).1 = s' := congrArg Prod.fst hconnect
      rw [hafter, hclock, hstep, harrivals]
      exact ⟨hid, hwritten, rfl⟩
  write_coming s text := by
    rcases script_write_cases s text with
      ⟨e, hwrite⟩ | ⟨s', hwrite, hwritten, hclock, hstep, harrivals⟩
    · have hsame : (Script.stream.write s text).1 = s := congrArg Prod.fst hwrite
      rw [hsame]
    · have hafter : (Script.stream.write s text).1 = s' := congrArg Prod.fst hwrite
      rw [hafter, hclock, hstep, harrivals]
  write_written s text := by
    rcases script_write_cases s text with
      ⟨e, hwrite⟩ | ⟨s', hwrite, hwritten, hclock, hstep, harrivals⟩
    · have hsame : Script.stream.write s text = (s, .error e) := hwrite
      rw [hsame]
      simp [Except.isOk, Except.toBool]
    · have hafter : Script.stream.write s text = (s', .ok ()) := hwrite
      rw [hafter]
      simpa [Except.isOk, Except.toBool] using hwritten
  receive_written s received s' h := by
    have hreceive : s.receive = (received, s') := h
    unfold Script.receive at hreceive
    split at hreceive
    · cases hreceive
      rfl
    · split at hreceive <;> cases hreceive <;> rfl
  receive_coming s received s' h := by
    have hreceive : s.receive = (received, s') := h
    unfold Script.receive at hreceive
    split at hreceive
    · cases hreceive
      rfl
    · split at hreceive
      · cases hreceive
        rfl
      · next harrivals =>
        cases hreceive
        simp [harrivals, played]
      · next harrivals =>
        cases hreceive
        simp [harrivals, played]
      · next harrivals =>
        cases hreceive
        simp [harrivals, played]

/-- A feed that still has a number and a book of an earlier session, and a stream that brings a
change of that book. -/
def resumed : Setup Script Queue where
  feed := { midway with subscription := Subscription.add {} .orderbook "BTC-USD" }
  stream := { id := "feed.ws.0", arrivals := [.frame late] }
  sink := {}

/-- The number of an earlier session is no longer followed up, and its book is gone. -/
theorem session_ends_resumed :
    ∃ came, (resumed.run Script.stream Queue.sink).2 = .failed (.missingSnapshot "BTC-USD") ∧
      resumed.Over scripted (resumed.run Script.stream Queue.sink).1
        (.missingSnapshot "BTC-USD") came := by
  have hmade : Feed.make resumed.feed.symbols resumed.feed.subscription =
      .ok { symbols := resumed.feed.symbols, subscription := resumed.feed.subscription } := by cbv
  have hrun : (resumed.run Script.stream Queue.sink).2 =
      .failed (.missingSnapshot "BTC-USD") := by cbv
  obtain ⟨e, came, hending, hover⟩ :=
    session_ends scripted Queue.sink_failsClosed resumed _ hmade
  cases hrun.symm.trans hending
  exact ⟨came, hrun, hover⟩

end MarketFeed.Feed
