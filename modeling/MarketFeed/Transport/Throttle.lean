import MarketFeed.Time.Clock
import MarketFeed.Transport.Client

/-!
Admission control for requests to read. A service allows a weight for each minute of its clock;
every request adds its own to a bucket. A request that fills the bucket waits for the end of the
bucket and opens the next one.
-/
namespace MarketFeed.Transport

/-- The bucket that is being filled. It ends on the boundary of a minute; before the first request
there is none. -/
structure Window where
  limit : UInt32
  used : UInt32 := 0
  finish : Option Nat := none
deriving DecidableEq

namespace Window

/-- The sum of two weights, as far as 32 bits count. -/
def weigh (a b : UInt32) : UInt32 := .ofNat (min (a.toNat + b.toNat) (UInt32.size - 1))

theorem toNat_weigh (a b : UInt32) :
    (weigh a b).toNat = min (a.toNat + b.toNat) (UInt32.size - 1) := by
  simp only [weigh, UInt32.toNat_ofNat', UInt32.size]
  omega

/-- A new bucket that holds one request. -/
def restart (w : Window) (weight : UInt32) (now : Nat) : Window :=
  { w with used := weight, finish := some (Time.nextMinute now) }

/-- Puts a request into the bucket, or into a new one if the bucket has ended. -/
def add (w : Window) (weight : UInt32) (now : Nat) : Window :=
  let finish := w.finish.getD (Time.nextMinute now)
  if finish < now then w.restart weight now
  else { w with used := weigh w.used weight, finish := some finish }

/-- How long the request just added has to wait, if it does. -/
def wait? (w : Window) (now : Nat) : Option Nat :=
  if w.limit ≤ w.used then some (w.finish.getD now - now) else none

/-- Charges a request: what it does to the bucket and to the clock. -/
def charge (w : Window) (weight : UInt32) (clock : Time.Clock) : Window × Time.Clock :=
  let w := w.add weight clock.reading
  match w.wait? clock.reading with
  | none => (w, clock)
  | some duration =>
    let clock := clock.sleep duration
    (w.restart weight clock.reading, clock)

end Window

/-- A client behind a window. -/
structure Throttled (σ : Type) where
  inner : σ
  window : Window
  clock : Time.Clock

namespace Throttled

variable {σ : Type}

def read (inner : Client σ) (s : Throttled σ) (request : Request) :
    Throttled σ × Except Error Reply :=
  let (window, clock) := s.window.charge request.weight s.clock
  let (state, answer) := inner.read s.inner request
  ({ inner := state, window, clock }, answer)

/-- Only requests to read are held up. -/
def client (inner : Client σ) : Client (Throttled σ) where
  identity s := inner.identity s.inner
  isOpen s := inner.isOpen s.inner
  connect s :=
    let (state, answer) := inner.connect s.inner
    ({ s with inner := state }, answer)
  close s := { s with inner := inner.close s.inner }
  read := read inner
  write s address body headers :=
    let (state, answer) := inner.write s.inner address body headers
    ({ s with inner := state }, answer)

end Throttled

end MarketFeed.Transport
