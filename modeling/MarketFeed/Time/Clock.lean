/-!
Minutes of the wall clock, in nanoseconds since the start of 1970 counted in 64 bits. An instant on
a boundary belongs to the minute that starts there.

A clock moves only when told to: by hand, by sleeping, or by a jump. Its reading is wall time, which
a jump can set to anything; `elapsed` is the time that has really passed and only grows.

Durations are shown in seconds from one second on, in milliseconds below, and without zeros at the
end of a fraction.
-/
namespace MarketFeed.Time

def second : Nat := 1000000000

def minute : Nat := 60 * second

/-- The longest duration: its whole seconds are counted in 64 bits. -/
def longest : Nat := UInt64.size * second - 1

/-- A duration in nanoseconds. -/
abbrev Duration := Fin (longest + 1)

/-- The last instant that a 64-bit count can name. -/
def latest : Nat := UInt64.size - 1

/-- The first boundary after an instant. -/
def nextMinute (now : Nat) : Nat := (now / minute + 1) * minute

/-- The nanoseconds in whole seconds and a fraction, as far as 64 bits count. -/
def span (seconds nanoseconds : Nat) : Nat := min (seconds * second + nanoseconds) latest

theorem lt_nextMinute (now : Nat) : now < nextMinute now := by
  simp only [nextMinute, minute, second]
  omega

theorem nextMinute_le (now : Nat) : nextMinute now ≤ now + minute := by
  simp only [nextMinute, minute, second]
  omega

/-- `lags` says how much longer than asked each of the coming sleeps takes. -/
structure Clock where
  reading : Nat
  elapsed : Nat := 0
  lags : List Nat := []
deriving DecidableEq

namespace Clock

def advance (c : Clock) (duration : Nat) : Clock :=
  { c with reading := c.reading + duration, elapsed := c.elapsed + duration }

def jump (c : Clock) (reading : Nat) : Clock := { c with reading }

def sleep (c : Clock) (duration : Nat) : Clock :=
  { c.advance (duration + c.lags.headD 0) with lags := c.lags.tail }

theorem reading_sleep (c : Clock) (duration : Nat) :
    (c.sleep duration).reading = c.reading + (duration + c.lags.headD 0) := rfl

theorem elapsed_sleep (c : Clock) (duration : Nat) :
    (c.sleep duration).elapsed = c.elapsed + (duration + c.lags.headD 0) := rfl

theorem lags_sleep (c : Clock) (duration : Nat) : (c.sleep duration).lags = c.lags.tail := rfl

theorem le_reading_sleep (c : Clock) (duration : Nat) :
    c.reading + duration ≤ (c.sleep duration).reading := by
  rw [reading_sleep]
  omega

end Clock

namespace Duration

/-- Three digits of a fraction, without the zeros at the end. -/
def fraction (thousandths : Nat) : List Char :=
  let digits := [thousandths / 100 % 10, thousandths / 10 % 10, thousandths % 10]
  ((digits.reverse.dropWhile (· == 0)).reverse).map fun d => Char.ofNat (48 + d)

def text (milliseconds : Nat) : String :=
  if milliseconds = 0 then "0ns"
  else if milliseconds < 1000 then toString milliseconds ++ "ms"
  else
    let whole := toString (milliseconds / 1000)
    match fraction (milliseconds % 1000) with
    | [] => whole ++ "s"
    | digits => whole ++ "." ++ String.ofList digits ++ "s"

end Duration

end MarketFeed.Time
