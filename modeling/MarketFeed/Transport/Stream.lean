import MarketFeed.Transport.Error

/-!
Streams: connections on which text frames go both ways. A stream is described by what it does to a
state of its own. `pending` bounds the frames that can still arrive, so reading a stream to its end
is a recursion that stops.
-/
namespace MarketFeed.Transport

/-- What reading from a stream brings. A frame comes with the time of its receipt; `interrupted`
means that waiting was given up. -/
inductive Received where
  | frame (text : String) (receipt : UInt64)
  | ended
  | failed (e : Error)
  | interrupted
deriving DecidableEq

structure Stream (σ : Type) where
  id : σ → String
  isOpen : σ → Bool
  connect : σ → σ × Except Error Unit
  close : σ → σ
  write : σ → String → σ × Except Error Unit
  receive : σ → Received × σ
  pending : σ → Nat
  pending_lt : ∀ s text receipt, (receive s).1 = .frame text receipt →
    pending (receive s).2 < pending s

/-- Writes texts one after another, up to the first that fails. -/
def Stream.writeAll {σ : Type} (stream : Stream σ) : σ → List String → σ × Except Error Unit
  | s, [] => (s, .ok ())
  | s, text :: rest =>
    match stream.write s text with
    | (s, .ok ()) => stream.writeAll s rest
    | (s, .error e) => (s, .error e)

end MarketFeed.Transport
