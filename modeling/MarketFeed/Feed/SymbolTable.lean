import MarketFeed.Feed.Error
import MarketFeed.Json.Reader
import MarketFeed.Json.Record

/-!
Symbols: the standard name of an instrument, such as `BTC-USD`, beside the exchange's own, such as
`BTCUSD`. The exchange's list of instruments gives both, and the smallest step of each price.
-/
namespace MarketFeed.Feed

open Number

structure SymbolTable where
  /-- The exchange's name by standard name. -/
  exchange : Table String String := .empty
  /-- The standard name by the exchange's name. -/
  standard : Table String String := .empty
  ticks : Table String Decimal := .empty
  /-- Whether an unknown name of the exchange may stand for itself. -/
  allowMissing : Bool := false

/-- An instrument in the exchange's list. -/
structure Instrument where
  id : String
  base : String
  tick : Decimal
deriving DecidableEq

/-- Cuts a text after so many octets, if there is a character boundary. -/
def cut? : (octets : Nat) → List Char → Option (List Char × List Char)
  | 0, s => some ([], s)
  | _ + 1, [] => none
  | octets + 1, c :: rest =>
    if c.utf8Size ≤ octets + 1 then
      (cut? (octets + 1 - c.utf8Size) rest).map fun parts => (c :: parts.1, parts.2)
    else none

namespace Instrument

def ofJson? (j : Json) : Option Instrument := do
  let fields ← Json.record? ["id", "baseCurrency", "tickSize"] 3 j
  let id ← Json.required fields "id" Json.asText?
  let base ← Json.required fields "baseCurrency" Json.asText?
  let tick ← Json.required fields "tickSize" Json.decimal?
  some { id, base, tick }

/-- The two parts of an id, the first as long as the base currency. Neither may be empty. -/
def parts? (i : Instrument) : Option (List Char × List Char) :=
  match cut? i.base.utf8ByteSize i.id.toList with
  | some (base, quote) => if base = [] ∨ quote = [] then none else some (base, quote)
  | none => none

/-- The standard name: both parts of the id with a separator between them. -/
def standard? (i : Instrument) (separator : String) : Option String :=
  i.parts?.map fun (base, quote) => String.ofList base ++ separator ++ String.ofList quote

end Instrument

namespace SymbolTable

/-- Adds a pair of names. -/
def insert (t : SymbolTable) (standard exchange : String) : SymbolTable :=
  { t with standard := t.standard.insert exchange standard
           exchange := t.exchange.insert standard exchange }

def ofPairs (pairs : List (String × String)) : SymbolTable :=
  pairs.foldl (fun t pair => t.insert pair.1 pair.2) {}

def size (t : SymbolTable) : Nat := t.exchange.size

def isEmpty (t : SymbolTable) : Bool := t.exchange.isEmpty

/-- Adds an instrument. One whose id does not start with a base currency is left out. -/
def addInstrument (separator : String) (t : SymbolTable) (i : Instrument) : SymbolTable :=
  match i.standard? separator with
  | none => t
  | some standard => { t with ticks := t.ticks.insert standard i.tick }.insert standard i.id

def ofInstruments (separator : String) (instruments : List Instrument) : SymbolTable :=
  instruments.foldl (addInstrument separator) {}

/-- Reads the exchange's list of instruments. -/
def ofPayload (payload separator : String) : Except Error SymbolTable :=
  match (Json.ofText? payload).bind (Json.list? Instrument.ofJson?) with
  | some instruments => .ok (ofInstruments separator instruments)
  | none => .error .payload

def exchangeSymbol (t : SymbolTable) (standard : String) : Except Error String :=
  match t.exchange.find? standard with
  | some exchange => .ok exchange
  | none => .error (.unknownSymbol standard)

def standardSymbol (t : SymbolTable) (exchange : String) : Except Error String :=
  match t.standard.find? exchange with
  | some standard => .ok standard
  | none => .error (.unknownSymbol exchange)

/-- The standard name, or else the exchange's own where that is allowed. -/
def resolve (t : SymbolTable) (exchange : String) : Except Error String :=
  match t.standard.find? exchange with
  | some standard => .ok standard
  | none => if t.allowMissing then .ok exchange else .error (.unknownSymbol exchange)

def tick? (t : SymbolTable) (standard : String) : Option Decimal := t.ticks.find? standard

theorem standardSymbol_error {t : SymbolTable} {exchange : String} {e : Error}
    (h : t.standardSymbol exchange = .error e) : e = .unknownSymbol exchange := by
  unfold standardSymbol at h
  split at h
  · cases h
  · cases h
    rfl

theorem resolve_error {t : SymbolTable} {exchange : String} {e : Error}
    (h : t.resolve exchange = .error e) : e = .unknownSymbol exchange := by
  unfold resolve at h
  split at h
  · cases h
  · split at h
    · cases h
    · cases h
      rfl

end SymbolTable

end MarketFeed.Feed
