import MarketFeed.Number.Double
import MarketFeed.Time.Instant
import MarketFeed.Toml.Document

/-!
Reading TOML. Each function takes what it reads from the front of a list of characters and returns
the rest with it, or nothing if the characters are not well formed.
-/
namespace MarketFeed.Toml

open Number

def isBlank (c : Char) : Bool := c == ' ' || c == '\t'

def skipBlanks (s : List Char) : List Char := s.dropWhile isBlank

/-- Characters that may stand in a comment or in text: no controls but the tab. -/
def isPlain (c : Char) : Bool := c == '\t' || (0x20 ≤ c.toNat && c.toNat != 0x7F)

/-- A line break, of one character or two. -/
def newline? : List Char → Option (List Char)
  | '\n' :: rest => some rest
  | '\r' :: '\n' :: rest => some rest
  | _ => none

def skipComment : List Char → List Char
  | '#' :: rest => rest.dropWhile isPlain
  | rest => rest

/-- The end of a line: blanks, a comment, and a line break or the end of the text. -/
def lineEnd? (s : List Char) : Option (List Char) :=
  match skipComment (skipBlanks s) with
  | [] => some []
  | rest => newline? rest

/-- Skips blanks, comments and line breaks. A step takes one character at least. -/
def skipSpace : (fuel : Nat) → List Char → List Char
  | 0, s => s
  | fuel + 1, s =>
    match skipComment (skipBlanks s) with
    | [] => []
    | rest =>
      match newline? rest with
      | some rest => skipSpace fuel rest
      | none => rest

/-! Text -/

def hexDigit? (c : Char) : Option Nat :=
  if '0' ≤ c ∧ c ≤ '9' then some (c.toNat - 48)
  else if 'a' ≤ c ∧ c ≤ 'f' then some (c.toNat - 87)
  else if 'A' ≤ c ∧ c ≤ 'F' then some (c.toNat - 55)
  else none

/-- The character with a code point of so many hexadecimal digits. -/
def codePoint? (count : Nat) (s : List Char) : Option (Char × List Char) := do
  let digits ← (s.take count).mapM hexDigit?
  let n := digits.foldl (fun n d => n * 16 + d) 0
  if digits.length = count ∧ n.isValidChar then some (Char.ofNat n, s.drop count) else none

/-- The rest of an escape after its backslash. -/
def escape? : List Char → Option (Char × List Char)
  | 'b' :: rest => some ('\x08', rest)
  | 't' :: rest => some ('\t', rest)
  | 'n' :: rest => some ('\n', rest)
  | 'f' :: rest => some ('\x0c', rest)
  | 'r' :: rest => some ('\r', rest)
  | '"' :: rest => some ('"', rest)
  | '\\' :: rest => some ('\\', rest)
  | 'u' :: rest => codePoint? 4 rest
  | 'U' :: rest => codePoint? 8 rest
  | _ => none

/-- Text on one line up to a closing quote, in which escapes may stand if `escapes`. -/
def lineText? (quote : Char) (escapes : Bool) :
    (fuel : Nat) → List Char → Option (List Char × List Char)
  | 0, _ => none
  | _ + 1, [] => none
  | fuel + 1, c :: rest => do
    if c = quote then some ([], rest)
    else
      let (c, rest) ← if c = '\\' ∧ escapes then escape? rest
        else if isPlain c then some (c, rest) else none
      let (more, rest) ← lineText? quote escapes fuel rest
      some (c :: more, rest)

/-- Skips blanks and line breaks. -/
def skipBreaks : (fuel : Nat) → List Char → List Char
  | 0, s => s
  | fuel + 1, s =>
    match newline? (skipBlanks s) with
    | some rest => skipBreaks fuel rest
    | none => skipBlanks s

/-- What follows a backslash at the end of a line: the break and the blanks around it are left
out. -/
def joinLines? (s : List Char) : Option (List Char) :=
  (newline? (skipBlanks s)).map fun rest => skipBreaks (rest.length + 1) rest

/-- Text over several lines up to three closing quotes. One or two quotes are text, also right
before the closing ones. -/
def blockText? (quote : Char) (escapes : Bool) :
    (fuel : Nat) → List Char → Option (List Char × List Char)
  | 0, _ => none
  | _ + 1, [] => none
  | fuel + 1, c :: rest =>
    if c = quote then
      let run := (c :: rest).takeWhile (· = quote)
      let after := (c :: rest).dropWhile (· = quote)
      if run.length < 3 then (blockText? quote escapes fuel after).map fun (more, rest) =>
        (run ++ more, rest)
      else if run.length ≤ 5 then some (run.drop 3, after)
      else none
    else if c = '\\' ∧ escapes then
      match joinLines? rest with
      | some rest => blockText? quote escapes fuel rest
      | none => do
        let (c, rest) ← escape? rest
        let (more, rest) ← blockText? quote escapes fuel rest
        some (c :: more, rest)
    else
      match newline? (c :: rest) with
      | some rest => (blockText? quote escapes fuel rest).map fun (more, rest) => ('\n' :: more, rest)
      | none =>
        if isPlain c then
          (blockText? quote escapes fuel rest).map fun (more, rest) => (c :: more, rest)
        else none

/-- A line break right after three opening quotes, which is left out. -/
def skipFirstBreak (s : List Char) : List Char := (newline? s).getD s

def text? (s : List Char) : Option (String × List Char) :=
  let found :=
    match s with
    | '"' :: '"' :: '"' :: rest => blockText? '"' true (rest.length + 1) (skipFirstBreak rest)
    | '"' :: rest => lineText? '"' true (rest.length + 1) rest
    | '\'' :: '\'' :: '\'' :: rest =>
      blockText? '\'' false (rest.length + 1) (skipFirstBreak rest)
    | '\'' :: rest => lineText? '\'' false (rest.length + 1) rest
    | _ => none
  found.map fun (cs, rest) => (String.ofList cs, rest)

/-! Keys -/

def isKeyChar (c : Char) : Bool :=
  c.isAlphanum || c == '_' || c == '-'

def simpleKey? (s : List Char) : Option (String × List Char) :=
  match s with
  | '"' :: rest => (lineText? '"' true (rest.length + 1) rest).map fun (cs, rest) =>
    (String.ofList cs, rest)
  | '\'' :: rest => (lineText? '\'' false (rest.length + 1) rest).map fun (cs, rest) =>
    (String.ofList cs, rest)
  | _ =>
    match s.takeWhile isKeyChar with
    | [] => none
    | cs => some (String.ofList cs, s.dropWhile isKeyChar)

/-- Simple keys with points between them, and blanks around each. -/
def keys? : (fuel : Nat) → List Char → Option (List String × List Char)
  | 0, _ => none
  | fuel + 1, s => do
    let (key, rest) ← simpleKey? (skipBlanks s)
    match skipBlanks rest with
    | '.' :: rest =>
      let (more, rest) ← keys? fuel rest
      some (key :: more, rest)
    | rest => some ([key], rest)

/-- How deep values may be nested, and how many parts a key may have, and one more. -/
def room : Nat := 80

def key? (s : List Char) : Option (List String × List Char) := do
  let (keys, rest) ← keys? (s.length + 1) s
  if keys.length < room then some (keys, rest) else none

/-! Numbers and dates -/

/-- Digits, of which two neighbours may have one underscore between them. -/
def digits? (isDigit : Char → Bool) : List Char → Option (List Char × List Char)
  | [] => none
  | c :: rest =>
    if isDigit c then some (more c rest) else none
where
  more (c : Char) : List Char → List Char × List Char
    | '_' :: d :: rest =>
      if isDigit d then
        let (digits, rest) := more d rest
        (c :: digits, rest)
      else ([c], '_' :: d :: rest)
    | d :: rest =>
      if isDigit d then
        let (digits, rest) := more d rest
        (c :: digits, rest)
      else ([c], d :: rest)
    | [] => ([c], [])

def sign? : List Char → Bool × List Char
  | '-' :: rest => (true, rest)
  | '+' :: rest => (false, rest)
  | rest => (false, rest)

/-- A whole part: a sign or none, then zero or digits that start with another one. -/
def whole? (s : List Char) : Option ((Bool × List Char) × List Char) :=
  let (negative, rest) := sign? s
  match rest with
  | '0' :: rest => some ((negative, ['0']), rest)
  | rest => (digits? Digits.isDigit rest).map fun (digits, rest) => ((negative, digits), rest)

/-- An exponent after its letter. -/
def exponent? (s : List Char) : Option (Int × List Char) :=
  let (negative, rest) := sign? s
  (digits? Digits.isDigit rest).map fun (digits, rest) =>
    let magnitude : Int := Digits.value digits
    (if negative then -magnitude else magnitude, rest)

def isExponentMark (c : Char) : Bool := c == 'e' || c == 'E'

def fraction? : List Char → Option (List Char × List Char)
  | '.' :: rest => digits? Digits.isDigit rest
  | rest => some ([], rest)

def power? : List Char → Option (Int × List Char)
  | c :: rest => if isExponentMark c then exponent? rest else some (0, c :: rest)
  | [] => some (0, [])

/-- A number with a fraction or an exponent, the name of an infinity or of no number. A positive
number past the largest double is refused. -/
def float? (s : List Char) : Option (Toml × List Char) :=
  match (sign? s).2 with
  | 'i' :: 'n' :: 'f' :: rest => some (float, rest)
  | 'n' :: 'a' :: 'n' :: rest => some (float, rest)
  | _ => do
    let ((negative, whole), rest) ← whole? s
    let (fraction, after) ← fraction? rest
    let (power, after) ← power? after
    if after.length = rest.length then none
    else
      let magnitude :=
        Double.nearest? false (Digits.value (whole ++ fraction)) (power - fraction.length)
      if negative ∨ magnitude.isSome then some (float, after) else none

def inRange (n : Int) (rest : List Char) : Option (Toml × List Char) :=
  if Int64.minValue.toInt ≤ n ∧ n ≤ Int64.maxValue.toInt then some (int n, rest) else none

/-- Digits of a base after its mark. -/
def based? (base : Nat) (s : List Char) : Option (Toml × List Char) := do
  let isDigit c : Bool := ((hexDigit? c).map fun d => decide (d < base)).getD false
  let (digits, rest) ← digits? isDigit s
  inRange (digits.foldl (fun n c => n * base + (hexDigit? c).getD 0) 0 : Nat) rest

def integer? : List Char → Option (Toml × List Char)
  | '0' :: 'x' :: rest => based? 16 rest
  | '0' :: 'o' :: rest => based? 8 rest
  | '0' :: 'b' :: rest => based? 2 rest
  | s => do
    let ((negative, digits), rest) ← whole? s
    let magnitude : Int := Digits.value digits
    inRange (if negative then -magnitude else magnitude) rest

/-- Hours, minutes and seconds with a fraction or none. -/
def clock? (s : List Char) : Option (List Char) := do
  let (hour, rest) ← Time.readDigits 2 s
  let rest ← Time.readChar [':'] rest
  let (minute, rest) ← Time.readDigits 2 rest
  let rest ← Time.readChar [':'] rest
  let (second, rest) ← Time.readDigits 2 rest
  if hour ≤ 23 ∧ minute ≤ 59 ∧ second ≤ 60 then
    match rest with
    | '.' :: rest =>
      match Digits.split rest with
      | ([], _) => none
      | (_, rest) => some rest
    | rest => some rest
  else none

/-- An offset from UTC, or nothing. -/
def offset? : List Char → Option (List Char)
  | c :: rest =>
    if c = 'Z' ∨ c = 'z' then some rest
    else if c = '+' ∨ c = '-' then do
      let (hour, rest) ← Time.readDigits 2 rest
      let rest ← Time.readChar [':'] rest
      let (minute, rest) ← Time.readDigits 2 rest
      if hour ≤ 23 ∧ minute ≤ 59 then some rest else none
    else some (c :: rest)
  | [] => some []

/-- A day of the calendar. -/
def day? (s : List Char) : Option (List Char) := do
  let (year, rest) ← Time.readDigits 4 s
  let rest ← Time.readChar ['-'] rest
  let (month, rest) ← Time.readDigits 2 rest
  let rest ← Time.readChar ['-'] rest
  let (day, rest) ← Time.readDigits 2 rest
  if 1 ≤ month ∧ month ≤ 12 ∧ 1 ≤ day ∧ day ≤ Time.daysInMonth year month then some rest else none

/-- A time of day after a date, or nothing. -/
def timeOfDay? (s : List Char) : Option (List Char) :=
  match s with
  | c :: rest =>
    if c ∈ ['T', 't', ' '] then
      match clock? rest with
      | some rest => offset? rest
      | none => some s
    else some s
  | [] => some []

/-- A date, a time, or both. -/
def date? (s : List Char) : Option (Toml × List Char) :=
  match day? s with
  | some rest => (timeOfDay? rest).map fun rest => (date, rest)
  | none => (clock? s).map fun rest => (date, rest)

def number? (s : List Char) : Option (Toml × List Char) := date? s <|> float? s <|> integer? s

/-! Values -/

mutual

/-- A value that `room` levels of arrays and tables may still hold. -/
def value? : (fuel room : Nat) → List Char → Option (Toml × List Char)
  | 0, _, _ => none
  | fuel + 1, room, s =>
    match s with
    | '"' :: _ | '\'' :: _ => (text? s).map fun (t, rest) => (text t, rest)
    | '[' :: rest =>
      if room ≤ 1 then none
      else
        match skipSpace (rest.length + 1) rest with
        | ']' :: rest => some (array [], rest)
        | rest => (items? fuel (room - 1) rest).map fun (items, rest) => (array items, rest)
    | '\x7b' :: rest =>
      if room ≤ 1 then none
      else
        match skipBlanks rest with
        | '\x7d' :: rest => some (table [], rest)
        | rest => do
          let (pairs, rest) ← pairs? fuel (room - 1) rest
          some (← tableOf pairs, rest)
    | 't' :: 'r' :: 'u' :: 'e' :: rest => some (bool true, rest)
    | 'f' :: 'a' :: 'l' :: 's' :: 'e' :: rest => some (bool false, rest)
    | _ => number? s

/-- The items of an array up to its end. A comma may follow the last one. -/
def items? : (fuel room : Nat) → List Char → Option (List Toml × List Char)
  | 0, _, _ => none
  | fuel + 1, room, s => do
    let (item, rest) ← value? fuel room s
    match skipSpace (rest.length + 1) rest with
    | ']' :: rest => some ([item], rest)
    | ',' :: rest =>
      match skipSpace (rest.length + 1) rest with
      | ']' :: rest => some ([item], rest)
      | rest =>
        let (more, rest) ← items? fuel room rest
        some (item :: more, rest)
    | _ => none

/-- The entries of a table in braces up to its end. -/
def pairs? : (fuel room : Nat) → List Char → Option (List (List String × Toml) × List Char)
  | 0, _, _ => none
  | fuel + 1, room, s => do
    let (keys, rest) ← key? s
    let '=' :: rest := rest | none
    let (v, rest) ← value? fuel room (skipBlanks rest)
    match skipBlanks rest with
    | '\x7d' :: rest => some ([(keys, v)], rest)
    | ',' :: rest =>
      let (more, rest) ← pairs? fuel room rest
      some ((keys, v) :: more, rest)
    | _ => none

end

/-! Documents -/

/-- A line of a document. -/
inductive Line where
  | nothing
  | entry (keys : List String) (v : Toml)
  | header (keys : List String)
  | listed (keys : List String)

/-- Reads a line with its end. A value takes one step, an array or table one more for each part, so
two steps for each character are enough. -/
def line? (s : List Char) : Option (Line × List Char) :=
  match skipBlanks s with
  | '[' :: '[' :: rest => do
    let (keys, rest) ← key? rest
    let ']' :: ']' :: rest := rest | none
    some (.listed keys, ← lineEnd? rest)
  | '[' :: rest => do
    let (keys, rest) ← key? rest
    let ']' :: rest := rest | none
    some (.header keys, ← lineEnd? rest)
  | rest =>
    match lineEnd? rest with
    | some rest => some (.nothing, rest)
    | none => do
      let (keys, rest) ← key? rest
      let '=' :: rest := rest | none
      let (v, rest) ← value? (2 * rest.length + 2) room (skipBlanks rest)
      some (.entry keys v, ← lineEnd? rest)

def lines? : (fuel : Nat) → List Char → Option (List Line)
  | 0, _ => none
  | _, [] => some []
  | fuel + 1, s => do
    let (line, rest) ← line? s
    some (line :: (← lines? fuel rest))

/-- A document so far: its tree, and the header whose table lines add to. -/
structure Draft where
  entries : Entries := []
  header : List String := []

def Draft.add (d : Draft) : Line → Option Draft
  | .nothing => some d
  | .entry keys v =>
    (alongHeader (addValue keys v) d.header d.entries).map fun entries => { d with entries }
  | .header keys => (openTable keys d.entries).map fun entries => { entries, header := keys }
  | .listed keys => (openListed keys d.entries).map fun entries => { entries, header := keys }

/-- Reads a document, which may start with a byte order mark. -/
def ofText? (s : String) : Option Toml := do
  let s :=
    match s.toList with
    | '\uFEFF' :: rest => rest
    | s => s
  let lines ← lines? (s.length + 1) s
  let draft ← lines.foldlM Draft.add {}
  some (.table (entriesToToml draft.entries))

end MarketFeed.Toml
