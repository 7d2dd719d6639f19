import MarketFeed.Transport.Capture

/-!
Wires: what a socket is built on. A wire carries messages both ways once a handshake has succeeded.
It is described by what it does to a state of its own. `pending` bounds the messages that can still
arrive.
-/
namespace MarketFeed.Transport

inductive Message where
  | text (s : String)
  | binary (octets : Octets)
  | ping (octets : Octets)
  | pong (octets : Octets)
  | raw (octets : Octets)
  | close
deriving DecidableEq

/-- What waiting for a message brings. -/
inductive Inbound where
  | message (m : Message)
  | failed
  | ended
  | interrupted
deriving DecidableEq

inductive Handshake where
  | accepted
  | refused
  | timedOut
deriving DecidableEq

structure Wire (ω : Type) where
  /-- Tries an address for at most so many milliseconds. -/
  handshake : ω → String → Nat → Handshake × ω
  /-- Sends a text, and says whether it was sent. -/
  send : ω → String → Bool × ω
  receive : ω → Inbound × ω
  close : ω → ω
  now : ω → UInt64
  pending : ω → Nat
  pending_lt : ∀ w m, (receive w).1 = .message m → pending (receive w).2 < pending w

theorem Wire.pending_of_receive {ω : Type} (wire : Wire ω) {w next : ω} {m : Message}
    (h : wire.receive w = (.message m, next)) : wire.pending next < wire.pending w := by
  have := wire.pending_lt w m
  simp_all

end MarketFeed.Transport
