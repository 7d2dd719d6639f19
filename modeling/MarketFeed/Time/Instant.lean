import MarketFeed.Number.Digits
import MarketFeed.Text.Characters
import MarketFeed.Time.Clock

/-!
Date and time texts such as `2018-11-19T05:00:28.193Z`. A text names a date, a time of day and the
offset of the local clock from UTC. `timestamp` is its distance from the start of 1970 in
nanoseconds, for the instants from then on that a signed 64-bit count can reach.
-/
namespace MarketFeed.Time

open Number

/-- A local date and time. The offset is in minutes, positive to the east. -/
structure Local where
  year : Nat
  month : Nat
  day : Nat
  hour : Nat
  minute : Nat
  second : Nat
  nanosecond : Nat
  offset : Int
deriving DecidableEq

def isLeap (year : Nat) : Bool := year % 4 == 0 && (year % 100 != 0 || year % 400 == 0)

def daysInMonth (year month : Nat) : Nat :=
  if month = 2 then (if isLeap year then 29 else 28)
  else if month ∈ [4, 6, 9, 11] then 30
  else 31

/-- The days of a year before the first of a month. -/
def daysBeforeMonth (year month : Nat) : Nat :=
  (List.range (month - 1)).foldl (fun days m => days + daysInMonth year (m + 1)) 0

/-- The days from the start of year 0, itself a leap year, to the start of a year. -/
def daysBeforeYear (year : Nat) : Nat :=
  365 * year + (year + 3) / 4 - (year + 99) / 100 + (year + 399) / 400

namespace Local

/-- Whether there is such a date and time. Second 60 is the one after second 59. -/
def isValid (t : Local) : Bool :=
  1 ≤ t.month && t.month ≤ 12 && 1 ≤ t.day && t.day ≤ daysInMonth t.year t.month &&
    t.hour ≤ 23 && t.minute ≤ 59 && t.second ≤ 60 && t.nanosecond < Time.second &&
    t.offset.natAbs < 24 * 60

/-- The days from the start of 1970 to a date. -/
def days (t : Local) : Int :=
  (daysBeforeYear t.year : Int) + daysBeforeMonth t.year t.month + (t.day - 1) -
    daysBeforeYear 1970

/-- The distance from the start of 1970 UTC in nanoseconds. -/
def distance (t : Local) : Int :=
  (((t.days * 24 + t.hour) * 60 + t.minute - t.offset) * 60 + t.second) * Time.second + t.nanosecond

end Local

/-- Exactly `count` digits. -/
def readDigits (count : Nat) (s : List Char) : Option (Nat × List Char) :=
  (Digits.value? (s.take count)).bind fun n =>
    if (s.take count).length = count then some (n, s.drop count) else none

def readChar (accepted : List Char) : List Char → Option (List Char)
  | c :: rest => if c ∈ accepted then some rest else none
  | [] => none

/-- A point and digits, of which nine count, or nothing. -/
def readNanoseconds : List Char → Option (Nat × List Char)
  | '.' :: rest =>
    match Digits.split rest with
    | ([], _) => none
    | (digits, rest) =>
      let counted := digits.take 9
      some (Digits.value counted * Digits.tens (9 - counted.length), rest)
  | rest => some (0, rest)

/-- A sign, hours and minutes. The minus sign may be the mathematical one. -/
def readOffset : List Char → Option (Int × List Char)
  | [] => none
  | c :: rest =>
    if c = 'Z' ∨ c = 'z' then some (0, rest)
    else if c ∈ ['+', '-', '\u2212'] then do
      let (hours, rest) ← readDigits 2 rest
      let rest ← readChar [':'] rest
      let (minutes, rest) ← readDigits 2 rest
      let size : Int := hours * 60 + minutes
      if minutes ≤ 59 then some (if c = '+' then size else -size, rest) else none
    else none

/-- Reads a whole text. -/
def Local.ofText? (s : List Char) : Option Local := do
  let (year, rest) ← readDigits 4 s
  let rest ← readChar ['-'] rest
  let (month, rest) ← readDigits 2 rest
  let rest ← readChar ['-'] rest
  let (day, rest) ← readDigits 2 rest
  let rest ← readChar ['T', 't', ' '] rest
  let (hour, rest) ← readDigits 2 rest
  let rest ← readChar [':'] rest
  let (minute, rest) ← readDigits 2 rest
  let rest ← readChar [':'] rest
  let (second, rest) ← readDigits 2 rest
  let (nanosecond, rest) ← readNanoseconds rest
  let (offset, rest) ← readOffset rest
  let t : Local := { year, month, day, hour, minute, second, nanosecond, offset }
  if rest = [] ∧ t.isValid then some t else none

inductive Failure where
  | invalid
  | outOfRange
  | beforeEpoch
deriving DecidableEq

def Failure.message (raw : String) : Failure → String
  | invalid => "invalid timestamp " ++ Text.Quoted.quote raw
  | outOfRange => "timestamp out of range: " ++ raw
  | beforeEpoch => "timestamp before epoch: " ++ raw

/-- Nanoseconds from the start of 1970 to the instant that a text names. -/
def timestamp (raw : String) : Except Failure Nat :=
  match Local.ofText? raw.toList with
  | none => .error .invalid
  | some t =>
    let n := t.distance
    if n < Int64.minValue.toInt ∨ Int64.maxValue.toInt < n then .error .outOfRange
    else if n < 0 then .error .beforeEpoch
    else .ok n.toNat

end MarketFeed.Time
