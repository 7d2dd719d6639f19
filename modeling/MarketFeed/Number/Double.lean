import MarketFeed.Number.Digits

/-!
Finite binary doubles in exact integers: a double is its sign and `significand · 2 ^ exponent`
steps of 2⁻¹⁰⁷⁴. `nearest?` rounds a decimal to the closest double, ties to the even significand.
`shortest` finds the fewest decimal digits that round back, and of those the closest.
-/
namespace MarketFeed.Number

structure Double where
  negative : Bool
  significand : Nat
  exponent : Nat
deriving DecidableEq

namespace Double

def isZero (x : Double) : Bool := x.significand == 0

/-- The quotient rounded to the nearest whole number, a half to the even one. -/
def roundHalfEven (a d : Nat) : Nat :=
  let q := a / d
  let r := a % d
  if 2 * r < d then q else if d < 2 * r then q + 1 else q + q % 2

/-- The exponent at which `a / d` steps have a significand of 53 bits, or the least exponent. -/
def exponentOf (a d : Nat) : Nat :=
  let guess := a.log2 - (d.log2 + 52)
  if a < d <<< (guess + 52) then guess - 1 else guess

/-- `a / d` steps as a double, unless it rounds past the largest one. -/
def ofRatio? (negative : Bool) (a d : Nat) : Option Double :=
  let exponent := exponentOf a d
  let significand := roundHalfEven a (d <<< exponent)
  let x : Double :=
    if significand = 1 <<< 53 then { negative, significand := 1 <<< 52, exponent := exponent + 1 }
    else { negative, significand, exponent }
  if x.exponent ≤ 2045 then some x else none

/-- The double nearest to `digits · 10 ^ power`. Magnitudes far outside the range of doubles are
decided by the count of digits alone. -/
def nearest? (negative : Bool) (digits : Nat) (power : Int) : Option Double :=
  let magnitude := power + (Digits.ofNat digits).length
  if digits = 0 ∨ magnitude < -330 then some { negative, significand := 0, exponent := 0 }
  else if 330 < magnitude then none
  else
    ofRatio? negative ((digits * Digits.tens power.toNat) <<< 1074) (Digits.tens (-power).toNat)

/-- What a tie between two decimals of the same length goes to. -/
inductive Tie where
  | even
  | up
deriving DecidableEq

/-- A positive value `num / den` between `num - below` and `num + above`, which are included if
`closed`: the values that round to one double. -/
structure Interval where
  num : Nat
  den : Nat
  below : Nat
  above : Nat
  closed : Bool

def interval (x : Double) : Interval :=
  let step := 1 <<< x.exponent
  let lowest := x.significand = 1 <<< 52 ∧ 0 < x.exponent
  { num := 4 * x.significand * step
    den := 4 <<< 1074
    below := if lowest then step else 2 * step
    above := 2 * step
    closed := x.significand % 2 == 0 }

/-- The same interval counted in steps of `10 ^ power`. -/
def Interval.scaled (i : Interval) (power : Int) : Interval :=
  let up := Digits.tens (-power).toNat
  { i with num := i.num * up, below := i.below * up, above := i.above * up,
           den := i.den * Digits.tens power.toNat }

def Interval.holds (i : Interval) (n : Nat) : Bool :=
  let v := n * i.den
  if v ≤ i.num then i.num - v < i.below || (i.closed && i.num - v == i.below)
  else v - i.num < i.above || (i.closed && v - i.num == i.above)

/-- The whole number in the interval closest to its value, if the next below or above lies in it. -/
def Interval.whole? (i : Interval) (tie : Tie) : Option Nat :=
  let low := i.num / i.den
  let rest := i.num % i.den
  match i.holds low, i.holds (low + 1) with
  | false, false => none
  | true, false => some low
  | false, true => some (low + 1)
  | true, true =>
    if 2 * rest < i.den then some low
    else if i.den < 2 * rest then some (low + 1)
    else some (if tie = .even ∧ low % 2 = 0 then low else low + 1)

/-- The power of ten of the first digit of a positive `num / den`. -/
def leadingPower (num den : Nat) : Int :=
  if den ≤ num then (Digits.ofNat (num / den)).length - 1
  else -((Digits.ofNat ((den - 1) / num)).length : Int)

/-- Drops zeros at the end, each of which raises the power by one. -/
def stripZeros : (fuel digits : Nat) → Int → Nat × Int
  | 0, digits, power => (digits, power)
  | fuel + 1, digits, power =>
    if digits ≠ 0 ∧ digits % 10 = 0 then stripZeros fuel (digits / 10) (power + 1)
    else (digits, power)

def search (i : Interval) (tie : Tie) (lead : Int) : (left : Nat) → (count : Int) → Nat × Int
  | 0, count => ((i.scaled (lead - count)).num / (i.scaled (lead - count)).den, lead - count)
  | left + 1, count =>
    match (i.scaled (lead - count)).whole? tie with
    | some digits => (digits, lead - count)
    | none => search i tie lead left (count + 1)

/-- Digits and power of ten of the shortest decimal that rounds to a double: grids of one digit and
more are tried until one has a point in the interval. -/
def shortest (tie : Tie) (x : Double) : Nat × Int :=
  if x.isZero then (0, 0)
  else
    let i := x.interval
    let found := search i tie (leadingPower i.num i.den) 17 0
    stripZeros 17 found.1 found.2

/-- Digits with the point after the first `whole` of them, filled up with zeros on either side. -/
def positional (digits : List Char) (whole : Int) : List Char × List Char :=
  if whole ≤ 0 then (['0'], List.replicate (-whole).toNat '0' ++ digits)
  else
    let n := whole.toNat
    (digits.take n ++ List.replicate (n - digits.length) '0', digits.drop n)

/-- The shortest decimal without an exponent; whole numbers have no point. -/
def plainText (x : Double) : List Char :=
  let (digits, power) := x.shortest .up
  let digits := Digits.ofNat digits
  let (whole, fraction) := positional digits (power + digits.length)
  (if x.negative then ['-'] else []) ++ whole ++ (if fraction = [] then [] else '.' :: fraction)

/-- The shortest decimal with a point or an exponent: positional from 10⁻⁵ up to 10¹⁶, else one
digit before the point and a signed exponent. -/
def text (x : Double) : List Char :=
  let (digits, power) := x.shortest .even
  let digits := Digits.ofNat digits
  let lead := power + digits.length - 1
  let body :=
    if x.isZero then ['0', '.', '0']
    else if -5 ≤ lead ∧ lead < 16 then
      let (whole, fraction) := positional digits (lead + 1)
      whole ++ '.' :: (if fraction = [] then ['0'] else fraction)
    else
      digits.take 1 ++ (if digits.length = 1 then [] else '.' :: digits.drop 1) ++
        'e' :: (if lead < 0 then '-' else '+') :: Digits.ofNat lead.natAbs
  (if x.negative then ['-'] else []) ++ body

end Double

end MarketFeed.Number
