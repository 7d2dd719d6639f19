/-!
Decimal digits: the value of a digit list as a left fold, and the digits of a number, first digit
first and no leading zero but for zero itself.
-/
namespace MarketFeed.Number.Digits

def digit? (c : Char) : Option Nat :=
  if '0' ≤ c ∧ c ≤ '9' then some (c.toNat - 48) else none

def isDigit (c : Char) : Bool := (digit? c).isSome

def toChar (d : Nat) : Char := Char.ofNat (48 + d)

def ofNat (n : Nat) : List Char :=
  if n < 10 then [toChar n] else ofNat (n / 10) ++ [toChar (n % 10)]

/-- The value of the digits in a list; characters that are no digits count as zeros. -/
def value (s : List Char) : Nat := s.foldl (fun n c => n * 10 + (digit? c).getD 0) 0

/-- The value of a list that holds digits only and at least one. -/
def value? (s : List Char) : Option Nat :=
  if s ≠ [] ∧ s.all isDigit then some (value s) else none

/-- A one with so many zeros after it. -/
def tens : Nat → Nat
  | 0 => 1
  | zeros + 1 => 10 * tens zeros

/-- The digits at the front and what follows them. -/
def split (s : List Char) : List Char × List Char := (s.takeWhile isDigit, s.dropWhile isDigit)

/-- At least `width` digits, filled up with zeros in front. -/
def padded (width n : Nat) : List Char :=
  List.replicate (width - (ofNat n).length) '0' ++ ofNat n

def ofInt (n : Int) : List Char :=
  if n < 0 then '-' :: ofNat n.natAbs else ofNat n.natAbs

theorem split_append (s : List Char) : (split s).1 ++ (split s).2 = s :=
  List.takeWhile_append_dropWhile

end MarketFeed.Number.Digits
