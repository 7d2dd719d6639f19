import MarketFeed.Number.Digits

/-!
Exact decimal numbers with a mantissa of at most 96 bits and at most 28 decimal places. A number
keeps the places it was written with, so `1.5` and `1.50` differ as values of the type and agree in
`units`, their count of the smallest step. Order and equality of prices go through `units`.
-/
namespace MarketFeed.Number

structure Decimal where
  mantissa : Int
  places : Nat
  mantissa_lt : mantissa.natAbs < 1 <<< 96 := by decide
  places_le : places ≤ 28 := by decide
deriving DecidableEq

namespace Decimal

def maxPlaces : Nat := 28

def ofParts? (mantissa : Int) (places : Nat) : Option Decimal :=
  if h : mantissa.natAbs < 1 <<< 96 ∧ places ≤ 28 then
    some { mantissa, places, mantissa_lt := h.1, places_le := h.2 }
  else none

def zero : Decimal := { mantissa := 0, places := 0 }

instance : Inhabited Decimal := ⟨zero⟩

/-- The value as a multiple of 10⁻²⁸. -/
def units (d : Decimal) : Int := d.mantissa * Digits.tens (maxPlaces - d.places)

def isZero (d : Decimal) : Bool := d.mantissa == 0

/-- The digits with the point before the last `places` of them and one digit at least before it. -/
def text (d : Decimal) : List Char :=
  let digits := Digits.padded (d.places + 1) d.mantissa.natAbs
  let whole := digits.take (digits.length - d.places)
  let fraction := digits.drop (digits.length - d.places)
  (if d.mantissa < 0 then ['-'] else []) ++ whole ++
    (if d.places = 0 then [] else '.' :: fraction)

instance : ToString Decimal := ⟨fun d => String.ofList d.text⟩

/-- Half away from zero at the last place that fits: what the first digit left out does to a
mantissa, which loses one more place when it grows past 96 bits. -/
def roundUp? (mantissa places : Nat) (next : Char) : Option (Nat × Nat) :=
  let digit? := if next = '_' ∨ next = '.' then some 0 else Digits.digit? next
  match digit? with
  | none => none
  | some digit =>
    if digit < 5 then some (mantissa, places)
    else if mantissa + 1 < 1 <<< 96 then some (mantissa + 1, places)
    else if places = 0 then none
    else some ((mantissa + 5) / 10, places - 1)

/-- Reads digits with at most one point. Underscores may follow the first digit. The fraction ends
where the mantissa or the places are full: one more character is read to round by, and what comes
after it is left out. A whole part that does not fit is refused. -/
def readFrom (mantissa places : Nat) (seenPoint seenDigit : Bool) :
    List Char → Option (Nat × Nat)
  | [] => if seenDigit then some (mantissa, places) else none
  | c :: rest =>
    if seenPoint ∧ maxPlaces ≤ places then roundUp? mantissa places c
    else
      match Digits.digit? c with
      | some digit =>
        let next := mantissa * 10 + digit
        if next < 1 <<< 96 then
          readFrom next (if seenPoint then places + 1 else 0) seenPoint true rest
        else if seenPoint then roundUp? mantissa places c
        else none
      | none =>
        if c = '.' ∧ !seenPoint then readFrom mantissa places true seenDigit rest
        else if c = '_' ∧ seenDigit then readFrom mantissa places seenPoint seenDigit rest
        else none

def signed? (negative : Bool) (parts : Option (Nat × Nat)) : Option Decimal := do
  let (mantissa, places) ← parts
  ofParts? (if negative then -(mantissa : Int) else mantissa) places

/-- Reads a number without an exponent. -/
def ofPlain? : List Char → Option Decimal
  | '-' :: rest => signed? true (readFrom 0 0 false false rest)
  | '+' :: rest => signed? false (readFrom 0 0 false false rest)
  | s => signed? false (readFrom 0 0 false false s)

/-- Moves the point by a power of ten: to the left by more places, to the right by fewer places and
then by zeros at the end. -/
def shift? (d : Decimal) (exponent : Int) : Option Decimal :=
  if exponent.natAbs ≤ maxPlaces then
    let places : Int := d.places - exponent
    if 0 ≤ places then ofParts? d.mantissa places.toNat
    else ofParts? (d.mantissa * Digits.tens (-places).toNat) 0
  else none

/-- An exponent: a minus sign or none, then digits, which may have a plus sign of their own. -/
def exponent? (s : List Char) : Option Int :=
  let magnitude? : List Char → Option Nat
    | '+' :: rest => Digits.value? rest
    | rest => Digits.value? rest
  match s with
  | '-' :: rest => (magnitude? rest).map fun n => -(n : Int)
  | rest => (magnitude? rest).map fun n => (n : Int)

def isExponentMark (c : Char) : Bool := c == 'e' || c == 'E'

/-- Reads a number with an exponent after the first `e`. -/
def ofScientific? (s : List Char) : Option Decimal :=
  match s.dropWhile (!isExponentMark ·) with
  | [] => none
  | _ :: exponent => do
    let base ← ofPlain? (s.takeWhile (!isExponentMark ·))
    base.shift? (← exponent? exponent)

def ofText? (s : List Char) : Option Decimal := ofPlain? s <|> ofScientific? s

end Decimal

end MarketFeed.Number
