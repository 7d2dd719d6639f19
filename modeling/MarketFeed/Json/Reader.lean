import MarketFeed.Json.Basic

/-!
Reading JSON text. Each function takes what it reads from the front of a list of characters and
returns the rest with it. A whole number that fits 64 bits is read as one, and every other number,
`-0` among them, as the nearest double.
-/
namespace MarketFeed.Json

open Number

def isBlank (c : Char) : Bool := c == ' ' || c == '\n' || c == '\r' || c == '\t'

def skipBlanks (s : List Char) : List Char := s.dropWhile isBlank

def hexDigit? (c : Char) : Option Nat :=
  if '0' ≤ c ∧ c ≤ '9' then some (c.toNat - 48)
  else if 'a' ≤ c ∧ c ≤ 'f' then some (c.toNat - 87)
  else if 'A' ≤ c ∧ c ≤ 'F' then some (c.toNat - 55)
  else none

/-- Four hexadecimal digits. -/
def unit? : List Char → Option (Nat × List Char)
  | a :: b :: c :: d :: rest => do
    let a ← hexDigit? a
    let b ← hexDigit? b
    let c ← hexDigit? c
    let d ← hexDigit? d
    some (((a * 16 + b) * 16 + c) * 16 + d, rest)
  | _ => none

/-- The character of a simple escape. -/
def simpleEscape? (c : Char) : Option Char :=
  if c = '"' ∨ c = '\\' ∨ c = '/' then some c
  else if c = 'b' then some '\x08'
  else if c = 'f' then some '\x0c'
  else if c = 'n' then some '\n'
  else if c = 'r' then some '\r'
  else if c = 't' then some '\t'
  else none

/-- A piece of text: a character, half of a surrogate pair, or the closing quote. -/
inductive Piece where
  | char (c : Char)
  | half (unit : Nat)
  | quote

def piece? : List Char → Option (Piece × List Char)
  | [] => none
  | '"' :: rest => some (.quote, rest)
  | '\\' :: 'u' :: rest => do
    let (unit, rest) ← unit? rest
    some (if 0xD800 ≤ unit ∧ unit ≤ 0xDFFF then .half unit else .char (Char.ofNat unit), rest)
  | '\\' :: c :: rest => (simpleEscape? c).map fun c => (.char c, rest)
  | c :: rest => if c = '\\' ∨ c.toNat < 0x20 then none else some (.char c, rest)

/-- The pieces up to the closing quote. -/
def pieces? : (fuel : Nat) → List Char → Option (List Piece × List Char)
  | 0, _ => none
  | fuel + 1, s => do
    match ← piece? s with
    | (.quote, rest) => some ([], rest)
    | (piece, rest) =>
      let (more, rest) ← pieces? fuel rest
      some (piece :: more, rest)

def isHigh (unit : Nat) : Bool := 0xD800 ≤ unit && unit < 0xDC00

def isLow (unit : Nat) : Bool := 0xDC00 ≤ unit && unit < 0xE000

/-- The characters of pieces in which a high half is always followed by a low one. -/
def paired? : List Piece → Option (List Char)
  | [] => some []
  | .char c :: rest => (paired? rest).map (c :: ·)
  | .half high :: .half low :: rest =>
    if isHigh high ∧ isLow low then
      (paired? rest).map (Char.ofNat (0x10000 + (high - 0xD800) * 0x400 + (low - 0xDC00)) :: ·)
    else none
  | .half _ :: _ => none
  | .quote :: _ => none

/-- The text after an opening quote, `none` inside if it has an unpaired surrogate. -/
def readText (s : List Char) : Option (Option String × List Char) := do
  let (pieces, rest) ← pieces? (s.length + 1) s
  some ((paired? pieces).map String.ofList, rest)

/-- The digits of a whole part: zero, or digits that start with another one. -/
def readWhole (s : List Char) : Option (List Char × List Char) :=
  match Digits.split s with
  | ([], _) => none
  | (digits, rest) =>
    if digits.length = 1 ∨ digits.head? ≠ some '0' then some (digits, rest) else none

/-- A point and digits, or nothing. -/
def readFraction : List Char → Option (Option (List Char) × List Char)
  | '.' :: rest =>
    match Digits.split rest with
    | ([], _) => none
    | (digits, rest) => some (some digits, rest)
  | rest => some (none, rest)

def readPower (negative : Bool) (s : List Char) : Option (Option Int × List Char) :=
  match Digits.split s with
  | ([], _) => none
  | (digits, rest) =>
    let magnitude : Int := Digits.value digits
    some (some (if negative then -magnitude else magnitude), rest)

/-- An exponent, or nothing. -/
def readExponent : List Char → Option (Option Int × List Char)
  | c :: rest =>
    if c = 'e' ∨ c = 'E' then
      match rest with
      | '-' :: rest => readPower true rest
      | '+' :: rest => readPower false rest
      | rest => readPower false rest
    else some (none, c :: rest)
  | [] => some (none, [])

def ofDouble? (x : Option Double) : Json :=
  match x with
  | some x => double x
  | none => unreadable

/-- The value of a number literal. -/
def ofLiteral (negative : Bool) (whole : List Char) (fraction : Option (List Char))
    (exponent : Option Int) : Json :=
  let n := Digits.value whole
  match fraction, exponent with
  | none, none =>
    if negative then
      if 0 < n ∧ n ≤ 1 <<< 63 then int (-(n : Int)) else ofDouble? (Double.nearest? true n 0)
    else if n < UInt64.size then int n
    else ofDouble? (Double.nearest? false n 0)
  | fraction, exponent =>
    let fraction := fraction.getD []
    ofDouble? (Double.nearest? negative (Digits.value (whole ++ fraction))
      (exponent.getD 0 - fraction.length))

def readNumber (s : List Char) : Option (Json × List Char) := do
  let negative := s.head? == some '-'
  let (whole, rest) ← readWhole (if negative then s.drop 1 else s)
  let (fraction, rest) ← readFraction rest
  let (exponent, rest) ← readExponent rest
  some (ofLiteral negative whole fraction exponent, rest)

def ofFields (fields : List (Option String × Json)) : Json :=
  match fields.mapM fun f => f.1.map fun name => (name, f.2) with
  | some fields => object fields
  | none => unreadable

mutual

def readValue : (fuel : Nat) → List Char → Option (Json × List Char)
  | 0, _ => none
  | fuel + 1, s =>
    match skipBlanks s with
    | 'n' :: 'u' :: 'l' :: 'l' :: rest => some (null, rest)
    | 't' :: 'r' :: 'u' :: 'e' :: rest => some (bool true, rest)
    | 'f' :: 'a' :: 'l' :: 's' :: 'e' :: rest => some (bool false, rest)
    | '"' :: rest => do
      let (s, rest) ← readText rest
      some ((s.map text).getD unreadable, rest)
    | '[' :: rest =>
      match skipBlanks rest with
      | ']' :: rest => some (array [], rest)
      | rest => do
        let (items, rest) ← readItems fuel rest
        some (array items, rest)
    | '\x7b' :: rest =>
      match skipBlanks rest with
      | '\x7d' :: rest => some (object [], rest)
      | rest => do
        let (fields, rest) ← readFields fuel rest
        some (ofFields fields, rest)
    | rest => readNumber rest

def readItems : (fuel : Nat) → List Char → Option (List Json × List Char)
  | 0, _ => none
  | fuel + 1, s => do
    let (item, rest) ← readValue fuel s
    match skipBlanks rest with
    | ']' :: rest => some ([item], rest)
    | ',' :: rest =>
      let (more, rest) ← readItems fuel rest
      some (item :: more, rest)
    | _ => none

def readFields : (fuel : Nat) → List Char → Option (List (Option String × Json) × List Char)
  | 0, _ => none
  | fuel + 1, s => do
    let '"' :: rest := skipBlanks s | none
    let (name, rest) ← readText rest
    let ':' :: rest := skipBlanks rest | none
    let (value, rest) ← readValue fuel rest
    match skipBlanks rest with
    | '\x7d' :: rest => some ([(name, value)], rest)
    | ',' :: rest =>
      let (more, rest) ← readFields fuel rest
      some ((name, value) :: more, rest)
    | _ => none

end

/-- Reads a whole text. A value takes one step, an array or object one more for each part, so two
steps for each character are enough. -/
def ofChars? (s : List Char) : Option Json := do
  let (value, rest) ← readValue (2 * s.length + 2) s
  if skipBlanks rest = [] then some value else none

def ofText? (s : String) : Option Json := ofChars? s.toList

end MarketFeed.Json
