import MarketFeed.Json.Record

/-!
Waiting before another attempt. The first wait is the base, each further one is twice as long up to
64 times the base, and none is longer than the maximum. After so many attempts there is no further
one until a reset.
-/
namespace MarketFeed.Settings

/-- Times are in milliseconds. -/
structure Reconnect where
  base : UInt64 := 1000
  max : UInt64 := 60000
  attempts : UInt32 := 10
deriving DecidableEq

namespace Reconnect

/-- How often a wait is doubled at most. -/
def doublings : Nat := 6

/-- The wait after the base was doubled so often, counted in 64 bits. -/
def delay (r : Reconnect) (doubled : Nat) : UInt64 :=
  UInt64.ofNat (min (min (r.base.toNat <<< doubled) (UInt64.size - 1)) r.max.toNat)

def readWord (j : Json) : Option UInt64 := (j.asNat? 64).map UInt64.ofNat

def readCount (j : Json) : Option UInt32 := (j.asNat? 32).map UInt32.ofNat

def ofJson? (j : Json) : Option Reconnect := do
  let d : Reconnect := {}
  let fields ← Json.record? ["base_backoff_ms", "max_backoff_ms", "max_attempts"] 0 j
  let base ← Json.withDefault fields "base_backoff_ms" d.base readWord
  let max ← Json.withDefault fields "max_backoff_ms" d.max readWord
  let attempts ← Json.withDefault fields "max_attempts" d.attempts readCount
  some { base, max, attempts }

def toJson (r : Reconnect) : Json :=
  .object [("base_backoff_ms", .int r.base.toNat), ("max_backoff_ms", .int r.max.toNat),
    ("max_attempts", .int r.attempts.toNat)]

end Reconnect

/-- Attempts made since the last reset, and how often the next wait is doubled. -/
structure Backoff where
  reconnect : Reconnect
  attempts : Nat := 0
  doubled : Nat := 0
deriving DecidableEq

namespace Backoff

/-- The wait before the next attempt, if there is one. -/
def next (b : Backoff) : Option UInt64 × Backoff :=
  if b.reconnect.attempts.toNat ≤ b.attempts then (none, b)
  else
    (some (b.reconnect.delay b.doubled),
      { b with attempts := b.attempts + 1, doubled := min (b.doubled + 1) Reconnect.doublings })

def reset (b : Backoff) : Backoff := { b with attempts := 0, doubled := 0 }

/-- The backoff after so many attempts since the last reset. -/
def afterAttempts (c : Reconnect) (spent : Nat) : Backoff :=
  { reconnect := c, attempts := spent, doubled := min spent Reconnect.doublings }

theorem reset_afterAttempts (c : Reconnect) (spent : Nat) :
    (afterAttempts c spent).reset = afterAttempts c 0 := rfl

theorem next_afterAttempts (c : Reconnect) (spent : Nat) :
    (afterAttempts c spent).next =
      if c.attempts.toNat ≤ spent then (none, afterAttempts c spent)
      else (some (c.delay (min spent Reconnect.doublings)), afterAttempts c (spent + 1)) := by
  have hdoubled : min (min spent Reconnect.doublings + 1) Reconnect.doublings =
      min (spent + 1) Reconnect.doublings := by omega
  simp [next, afterAttempts, hdoubled]

end Backoff

end MarketFeed.Settings
