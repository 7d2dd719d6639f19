import MarketFeed.Number.Digits

/-!
Numbers as hosts: IPv4 addresses of one to four parts, each decimal, octal or hexadecimal, and IPv6
addresses of eight pieces, of which one run of zeros may be left out and the last two may be written
as an IPv4 address.
-/
namespace MarketFeed.Url

open Number

/-- The parts of a text between separators. -/
def splitOn (separator : Char) : List Char → List (List Char)
  | [] => [[]]
  | c :: rest =>
    if c = separator then [] :: splitOn separator rest
    else
      match splitOn separator rest with
      | part :: parts => (c :: part) :: parts
      | [] => [[c]]

def hexDigit? (c : Char) : Option Nat :=
  if '0' ≤ c ∧ c ≤ '9' then some (c.toNat - 48)
  else if 'a' ≤ c ∧ c ≤ 'f' then some (c.toNat - 87)
  else if 'A' ≤ c ∧ c ≤ 'F' then some (c.toNat - 55)
  else none

/-- The value of digits of a base. No digits are zero. -/
def ofBase? (base : Nat) (s : List Char) : Option Nat :=
  s.foldlM (fun n c => do
    let d ← hexDigit? c
    if d < base then some (n * base + d) else none) 0

namespace Ipv4

/-- A part of an address: `0x` starts a hexadecimal number and another zero an octal one. -/
def part? : List Char → Option Nat
  | [] => none
  | '0' :: 'x' :: rest | '0' :: 'X' :: rest => ofBase? 16 rest
  | '0' :: c :: rest => ofBase? 8 (c :: rest)
  | s => ofBase? 10 s

/-- The parts of an address, without an empty one at the end. -/
def parts (s : List Char) : List (List Char) :=
  let parts := splitOn '.' s
  if parts.getLast? = some [] then parts.dropLast else parts

/-- Whether a host is to be read as an address: its last part is a number. -/
def isMeant (s : List Char) : Bool :=
  match (parts s).getLast? with
  | none => false
  | some last => (!last.isEmpty && last.all Digits.isDigit) || (part? last).isSome

/-- The last part fills the octets that the others leave, which are one octet each. -/
def ofText? (s : List Char) : Option Nat := do
  let numbers ← (parts s).mapM part?
  let last ← numbers.getLast?
  let front := numbers.dropLast
  if front.length ≤ 3 ∧ (front.all (· ≤ 255)) ∧ last < 1 <<< (8 * (4 - front.length)) then
    some (front.foldl (fun n part => n * 256 + part) 0 <<< (8 * (4 - front.length)) + last)
  else none

end Ipv4

namespace Ipv6

/-- A piece of one to four hexadecimal digits. -/
def piece? (s : List Char) : Option Nat :=
  if s ≠ [] ∧ s.length ≤ 4 then ofBase? 16 s else none

/-- A decimal octet without a leading zero. -/
def octet? (s : List Char) : Option Nat :=
  match Digits.value? s with
  | some n => if n ≤ 255 ∧ (s.length = 1 ∨ s.head? ≠ some '0') then some n else none
  | none => none

/-- Four octets with points between them, as two pieces. -/
def tail? (s : List Char) : Option (List Nat) :=
  match (splitOn '.' s).mapM octet? with
  | some [a, b, c, d] => some [a * 256 + b, c * 256 + d]
  | _ => none

/-- Pieces with colons between them. The last may be an IPv4 address, which counts for two. -/
def pieces? : List (List Char) → Option (List Nat)
  | [] => some []
  | [last] => if last.contains '.' then tail? last else (piece? last).map ([·])
  | part :: rest => do some ((← piece? part) :: (← pieces? rest))

def side? (s : List Char) : Option (List Nat) :=
  if s = [] then some [] else pieces? (splitOn ':' s)

/-- Cuts a text at its first pair of colons. -/
def cut : List Char → Option (List Char × List Char)
  | ':' :: ':' :: rest => some ([], rest)
  | c :: rest => (cut rest).map fun (before, after) => (c :: before, after)
  | [] => none

/-- Eight pieces, or fewer with a pair of colons where zeros are left out. -/
def ofText? (s : List Char) : Option (List Nat) :=
  match cut s with
  | none => do
    let pieces ← side? s
    if pieces.length = 8 then some pieces else none
  | some (before, after) => do
    if before.contains '.' then none
    else
      let front ← side? before
      let back ← side? after
      if front.length + back.length < 8 then
        some (front ++ List.replicate (8 - (front.length + back.length)) 0 ++ back)
      else none

end Ipv6

end MarketFeed.Url
