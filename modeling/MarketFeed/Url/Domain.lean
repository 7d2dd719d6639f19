import MarketFeed.Text.Characters
import MarketFeed.Url.Ip

/-!
Domain names in URLs. A name is put into lower case, some characters are dropped and the wide forms
of ASCII are made plain; then no character may be left that has a meaning of its own in a URL or is
no letter, digit or mark of any script. A label with the sign of an encoded one has to decode.
-/
namespace MarketFeed.Url.Domain

open Text.Printable

/-- Characters that do not count, as closed ranges. -/
def ignored : List (Nat × Nat) :=
  [(0xAD, 0xAD), (0x34F, 0x34F), (0x180B, 0x180F), (0x200B, 0x200B), (0x2060, 0x2060),
   (0x2064, 0x2064), (0xFE00, 0xFE0F), (0xFEFF, 0xFEFF), (0xE0100, 0xE01EF)]

def isIgnored (c : Char) : Bool := ignored.any fun r => r.1 ≤ c.toNat && c.toNat ≤ r.2

/-- The plain form of a character. -/
def plain (c : Char) : Char :=
  let n := c.toNat
  if n = 0x3002 ∨ n = 0xFF0E ∨ n = 0xFF61 then '.'
  else if 0xFF01 ≤ n ∧ n ≤ 0xFF5E then (Char.ofNat (n - 0xFEE0)).toLower
  else c.toLower

/-- ASCII characters that may not stand in a name. -/
def isForbidden (c : Char) : Bool :=
  c.toNat ≤ 0x20 || c.toNat == 0x7F ||
    ['#', '%', '/', ':', '<', '>', '?', '@', '[', '\\', ']', '^', '|'].contains c

/-- Characters past ASCII that may not stand in a name. -/
def isRefused (c : Char) : Bool :=
  0x80 ≤ c.toNat && (isUnprintable c || c.toNat == 0x200C || c.toNat == 0x200D || c.toNat == 0xFFFD)

/-! Encoded labels are numbers of base 36 that insert characters into a list. -/

def digit36? (c : Char) : Option Nat :=
  if 'a' ≤ c ∧ c ≤ 'z' then some (c.toNat - 97)
  else if '0' ≤ c ∧ c ≤ '9' then some (c.toNat - 22)
  else none

def threshold (delta k : Nat) : Nat :=
  if delta > 455 then threshold (delta / 35) (k + 36) else k + 36 * delta / (delta + 38)
termination_by delta

/-- How the threshold of the digits moves after a number was read. -/
def adapt (delta count : Nat) (isFirst : Bool) : Nat :=
  let delta := if isFirst then delta / 700 else delta / 2
  threshold (delta + delta / count) 0

/-- Reads one number: each digit below its threshold is the last. -/
def readNumber (bias : Nat) : (weight k : Nat) → (sum : Nat) → List Char → Option (Nat × List Char)
  | _, _, _, [] => none
  | weight, k, sum, c :: rest =>
    match digit36? c with
    | none => none
    | some digit =>
      let sum := sum + digit * weight
      let least := if k ≤ bias then 1 else min 26 (k - bias)
      if UInt32.size ≤ sum then none
      else if digit < least then some (sum, rest)
      else readNumber bias (weight * (36 - least)) (k + 36) sum rest

def insertAll : (fuel n i bias : Nat) → List Char → List Char → Option (List Char)
  | _, _, _, _, out, [] => some out
  | 0, _, _, _, _, _ :: _ => none
  | fuel + 1, n, i, bias, out, s => do
    let (sum, rest) ← readNumber bias 1 36 i s
    let count := out.length + 1
    let n := n + sum / count
    let place := sum % count
    if n.isValidChar then
      insertAll fuel n (place + 1) (adapt (sum - i) count (i = 0))
        (out.take place ++ Char.ofNat n :: out.drop place) rest
    else none

/-- The characters of an encoded label after its sign. -/
def decode? (s : List Char) : Option (List Char) :=
  let back := s.reverse.takeWhile (· ≠ '-')
  let front := (s.reverse.dropWhile (· ≠ '-')).drop 1
  insertAll (s.length + 1) 0x80 0 72 front.reverse back.reverse

/-- A label may not start with a mark that belongs to the character before it. An encoded one has to
hold something past ASCII, in plain form. -/
def isLabel (s : List Char) : Bool :=
  let isFine (s : List Char) : Bool :=
    !s.any isRefused && (s.head?.map fun c => !isCombining c).getD true
  match s with
  | 'x' :: 'n' :: '-' :: '-' :: rest =>
    match decode? rest with
    | some t => t.any (0x80 ≤ ·.toNat) && t.all (fun c => plain c == c && !isIgnored c) && isFine t
    | none => false
  | s => isFine s

/-- A name in plain form, if it is one. -/
def ofText? (s : List Char) : Option (List Char) :=
  let name := (s.filter fun c => !isIgnored c).map plain
  if name ≠ [] ∧ !name.any isForbidden ∧ (splitOn '.' name).all isLabel then some name else none

end MarketFeed.Url.Domain
