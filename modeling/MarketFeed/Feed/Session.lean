import MarketFeed.Feed.Basic
import MarketFeed.Transport.Stream

/-!
Sessions: a feed opens a stream, subscribes, and handles frames until something ends the session.
A frame that cannot be read and one for an unknown symbol are dropped. A session ends when the
numbers or the books are broken, when the connection is lost, or when the sink takes no more.
-/
namespace MarketFeed.Feed

open Transport (Stream)

/-- How a session ends. -/
inductive Ending where
  | failed (e : Error)
  | interrupted
deriving DecidableEq

/-- A feed together with its stream and its sink. -/
structure Setup (σ κ : Type) where
  feed : Feed
  stream : σ
  sink : κ

variable {σ κ : Type}

/-- Writes the frames that subscribe and tells how many there are. -/
def subscribe (f : Feed) (stream : Stream σ) (s : σ) : σ × Except Error Nat :=
  match f.subscribeFrames (stream.id s) with
  | .error e => (s, .error e)
  | .ok frames =>
    match stream.writeAll s frames with
    | (s, .ok ()) => (s, .ok frames.length)
    | (s, .error e) => (s, .error (.channel e))

/-- Whether an error concerns one frame only, which is then dropped. -/
def Error.isDropped : Error → Bool
  | malformed _ | unknownSymbol _ => true
  | _ => false

/-- Ends a session with an error: the stream is closed. -/
def Setup.finish (stream : Stream σ) (x : Setup σ κ) (e : Error) : Setup σ κ × Ending :=
  let phase : Phase := if e.requiresResync then .gap else .connectionLost
  ({ x with feed := { x.feed with phase }, stream := stream.close x.stream }, .failed e)

/-- Handles frames until the session ends. -/
def Setup.follow (stream : Stream σ) (sink : Sink κ) (x : Setup σ κ) : Setup σ κ × Ending :=
  match h : stream.receive x.stream with
  | (.interrupted, s) => ({ x with stream := s }, .interrupted)
  | (.ended, s) =>
    { x with stream := s }.finish stream (.channel (.closed (stream.id s)))
  | (.failed e, s) => { x with stream := s }.finish stream (.channel e)
  | (.frame text receipt, s) =>
    have : stream.pending s < stream.pending x.stream := by
      have shorter := stream.pending_lt x.stream text receipt
      rw [h] at shorter
      exact shorter rfl
    match x.feed.handleWith sink x.sink text receipt with
    | (feed, kept, .ok ()) => Setup.follow stream sink { feed, stream := s, sink := kept }
    | (feed, kept, .error e) =>
      if e.isDropped then Setup.follow stream sink { feed, stream := s, sink := kept }
      else { feed, stream := s, sink := kept : Setup σ κ }.finish stream e
termination_by stream.pending x.stream

/-- Runs one session: opens the stream unless it is open, starts with no numbers and no books,
subscribes, and follows the stream. -/
def Setup.run (stream : Stream σ) (sink : Sink κ) (x : Setup σ κ) : Setup σ κ × Ending :=
  let opened := if stream.isOpen x.stream then (x.stream, .ok ()) else stream.connect x.stream
  match opened with
  | (s, .error e) =>
    ({ x with feed := { x.feed with phase := .disconnected }, stream := s },
      .failed (.channel e))
  | (s, .ok ()) =>
    let feed := x.feed.beginSession
    match feed.subscribe stream s with
    | (s, .error e) => { x with feed, stream := s }.finish stream e
    | (s, .ok _) =>
      { x with feed := { feed with phase := .streaming }, stream := s }.follow stream sink

end MarketFeed.Feed
