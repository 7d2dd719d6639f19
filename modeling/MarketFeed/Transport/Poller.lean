import MarketFeed.Time.Clock
import MarketFeed.Transport.Client

/-!
Polling: reading a list of addresses over and over, in order, with a pause after each body and a
longer one after each round. A polling ends with the first failure and never opens the connection.
It breaks off, the body at hand lost, after a round if the pause then due is longer than any duration.
-/
namespace MarketFeed.Transport

structure Poller where
  addresses : List String
  /-- The pause after each body, and what is added to it when a round is complete. -/
  pause : Time.Duration
  roundPause : Time.Duration
  length_pos : 0 < addresses.length

/-- One polling of a client: the place of the address that comes next, and the pause that is due
before it is read. -/
structure Polling (p : Poller) (σ : Type) where
  channel : σ
  clock : Time.Clock
  headers : Headers
  place : Fin p.addresses.length := ⟨0, p.length_pos⟩
  due : Option Time.Duration := none
  finished : Bool := false
  /-- Whether the polling broke off. -/
  broken : Bool := false

namespace Poller

def make (id : String) (addresses : List String) (pause roundPause : Time.Duration) :
    Except Error Poller :=
  if h : 0 < addresses.length then .ok { addresses, pause, roundPause, length_pos := h }
  else .error (.construction (id ++ ": poller needs at least one address"))

/-- The request that is sent from a place. -/
def request (p : Poller) (headers : Headers) (place : Fin p.addresses.length) : Request :=
  { address := p.addresses.get place, headers }

/-- The place after a body, and the pause before it if there are durations as long. A round is
complete after the last place. -/
def advance (p : Poller) (place : Fin p.addresses.length) :
    Option (Fin p.addresses.length × Time.Duration) :=
  if h : place.val + 1 < p.addresses.length then some (⟨place.val + 1, h⟩, p.pause)
  else if h : p.pause.val + p.roundPause.val ≤ Time.longest then
    some (⟨0, p.length_pos⟩, ⟨p.pause.val + p.roundPause.val, Nat.lt_succ_of_le h⟩)
  else none

variable {σ : Type}

/-- The next item of a polling: the text of a body, or the failure that ends it. -/
def next (p : Poller) (client : Client σ) (s : Polling p σ) :
    Option (Except Error String) × Polling p σ :=
  if s.finished || s.broken then (none, s)
  else
    let clock := (s.due.map fun pause => s.clock.sleep pause.val).getD s.clock
    if !client.isOpen s.channel then
      (some (.error (client.closedError s.channel)),
        { s with clock, due := none, finished := true })
    else
      match client.read s.channel (p.request s.headers s.place) with
      | (channel, .ok reply) =>
        match p.advance s.place with
        | some (place, pause) =>
          (some (.ok reply.text), { s with channel, clock, place, due := some pause })
        | none => (none, { s with channel, clock, due := none, broken := true })
      | (channel, .error e) =>
        (some (.error e), { s with channel, clock, due := none, finished := true })

/-- At most so many items, each with the time that has passed on the clock when it comes. -/
def take (p : Poller) (client : Client σ) :
    Nat → Polling p σ → List (Nat × Except Error String) × Polling p σ
  | 0, s => ([], s)
  | n + 1, s =>
    match p.next client s with
    | (none, s) => ([], s)
    | (some item, s) =>
      let (items, last) := p.take client n s
      ((s.clock.elapsed, item) :: items, last)

end Poller

end MarketFeed.Transport
