import MarketFeed.Feed.Basic
import MarketFeed.Settings.Backoff

/-!
What to do when a session has ended. A permanent error stops the collector at once. Otherwise it
waits and tries again, as long as attempts are left; a session that brought data makes them whole.
-/
namespace MarketFeed.Collector

/-- How a session ended: the phase the feed was left in, how many messages of data it brought, and
its error. -/
structure SessionEnd where
  phase : Feed.Phase
  received : UInt64
  error : Feed.Error

/-- `wait` is in milliseconds. -/
inductive Verdict where
  | stop
  | giveUp
  | wait (milliseconds : UInt64)
deriving DecidableEq

namespace SessionEnd

/-- Counters belong to the session only if it was opened. -/
def broughtData (s : SessionEnd) : Bool := s.phase != .disconnected && 0 < s.received

/-- The verdict on a session, and the attempts that are left after it. -/
def judge (b : Settings.Backoff) (s : SessionEnd) : Verdict × Settings.Backoff :=
  if s.error.isPermanent then (.stop, b)
  else
    let b := if s.broughtData then b.reset else b
    match b.next with
    | (some delay, b) => (.wait delay, b)
    | (none, b) => (.giveUp, b)

end SessionEnd

end MarketFeed.Collector
