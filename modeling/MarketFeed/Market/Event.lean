import MarketFeed.Market.Delta
import MarketFeed.Json.Record

/-!
What a feed publishes: best prices, executions and changes of the order book, each with the time
the exchange gives and the time of receipt, in nanoseconds since the start of 1970. In JSON an
event is one object, its kind in the field `type`.
-/
namespace MarketFeed.Market

open Number

/-- Best prices; a side that the exchange reports empty has none. -/
structure Ticker where
  symbol : String
  bid : Option Decimal
  ask : Option Decimal
  timestamp : UInt64
  receipt : UInt64
deriving DecidableEq

structure Trade where
  symbol : String
  taker : Taker
  price : Decimal
  amount : Decimal
  id : String
  timestamp : UInt64
  receipt : UInt64
deriving DecidableEq

/-- A book made anew has no delta, a changed one has the changes. -/
structure BookChange where
  symbol : String
  isSnapshot : Bool
  delta : Option Delta
  timestamp : UInt64
  receipt : UInt64
deriving DecidableEq

inductive Event where
  | ticker (t : Ticker)
  | trade (t : Trade)
  | book (b : BookChange)
deriving DecidableEq

namespace BookChange

def snapshot (symbol : String) (timestamp receipt : UInt64) : BookChange :=
  { symbol, isSnapshot := true, delta := none, timestamp, receipt }

def incremental (symbol : String) (delta : Delta) (timestamp receipt : UInt64) : BookChange :=
  { symbol, isSnapshot := false, delta := some delta, timestamp, receipt }

end BookChange

namespace Event

def symbol : Event → String
  | ticker t => t.symbol
  | trade t => t.symbol
  | book b => b.symbol

def receipt : Event → UInt64
  | ticker t => t.receipt
  | trade t => t.receipt
  | book b => b.receipt

/-- The kind of an event as it is written elsewhere than in `type`. -/
def kind : Event → String
  | ticker _ => "ticker"
  | trade _ => "trade"
  | book _ => "l2_book"

end Event

namespace Level

def toJson (l : Level) : Json := .array [Json.ofDecimal l.price, Json.ofDecimal l.size]

def ofJson? (j : Json) : Option Level :=
  (Json.pair? Json.decimal? Json.decimal? j).map fun p => { price := p.1, size := p.2 }

end Level

namespace Delta

def toJson (d : Delta) : Json :=
  .object [("bid", .array (d.bid.map Level.toJson)), ("ask", .array (d.ask.map Level.toJson))]

def ofJson? (j : Json) : Option Delta := do
  let fields ← Json.record? ["bid", "ask"] 2 j
  let bid ← Json.required fields "bid" (Json.list? Level.ofJson?)
  let ask ← Json.required fields "ask" (Json.list? Level.ofJson?)
  some { bid, ask }

end Delta

namespace Taker

/-- A name, or an object with the name for its only field and nothing in it. -/
def ofJson? (isNothing : Json → Bool) : Json → Option Taker
  | .text s => all.find? (·.name == s)
  | .object [(s, j)] => if isNothing j then all.find? (·.name == s) else none
  | _ => none

end Taker

namespace Event

def word (n : UInt64) : Json := .int n.toNat

def readWord (j : Json) : Option UInt64 := (j.asNat? 64).map UInt64.ofNat

def toJson : Event → Json
  | ticker t =>
    .object [("type", .text "ticker"), ("symbol", .text t.symbol),
      ("bid", Json.ofOption (t.bid.map Json.ofDecimal)),
      ("ask", Json.ofOption (t.ask.map Json.ofDecimal)),
      ("timestamp", word t.timestamp), ("receipt_timestamp", word t.receipt)]
  | trade t =>
    .object [("type", .text "trade"), ("symbol", .text t.symbol), ("side", .text t.taker.name),
      ("price", Json.ofDecimal t.price), ("amount", Json.ofDecimal t.amount),
      ("order_id", .text t.id), ("timestamp", word t.timestamp),
      ("receipt_timestamp", word t.receipt)]
  | book b =>
    .object [("type", .text "book_update"), ("symbol", .text b.symbol),
      ("is_snapshot", .bool b.isSnapshot), ("delta", Json.ofOption (b.delta.map Delta.toJson)),
      ("timestamp", word b.timestamp), ("receipt_timestamp", word b.receipt)]

/-- Splits off the field `type`, which in an array is the first item. -/
def tagged? : Json → Option (String × Json)
  | .object fields =>
    match fields.filter (·.1 == "type") with
    | [(_, .text tag)] => some (tag, .object (fields.filter (·.1 != "type")))
    | _ => none
  | .array (.text tag :: rest) => some (tag, .array rest)
  | _ => none

def isNothing : Json → Bool
  | .null => true
  | .object [] => true
  | _ => false

def tickerOfJson? (j : Json) : Option Ticker := do
  let fields ← Json.record? ["symbol", "bid", "ask", "timestamp", "receipt_timestamp"] 5 j
  let symbol ← Json.required fields "symbol" Json.asText?
  let bid ← Json.optional fields "bid" Json.decimal?
  let ask ← Json.optional fields "ask" Json.decimal?
  let timestamp ← Json.required fields "timestamp" readWord
  let receipt ← Json.required fields "receipt_timestamp" readWord
  some { symbol, bid, ask, timestamp, receipt }

def tradeOfJson? (j : Json) : Option Trade := do
  let fields ← Json.record?
    ["symbol", "side", "price", "amount", "order_id", "timestamp", "receipt_timestamp"] 7 j
  let symbol ← Json.required fields "symbol" Json.asText?
  let taker ← Json.required fields "side" (Taker.ofJson? isNothing)
  let price ← Json.required fields "price" Json.decimal?
  let amount ← Json.required fields "amount" Json.decimal?
  let id ← Json.required fields "order_id" Json.asText?
  let timestamp ← Json.required fields "timestamp" readWord
  let receipt ← Json.required fields "receipt_timestamp" readWord
  some { symbol, taker, price, amount, id, timestamp, receipt }

def bookOfJson? (j : Json) : Option BookChange := do
  let fields ← Json.record? ["symbol", "is_snapshot", "delta", "timestamp", "receipt_timestamp"] 5 j
  let symbol ← Json.required fields "symbol" Json.asText?
  let isSnapshot ← Json.required fields "is_snapshot" Json.asBool?
  let delta ← Json.optional fields "delta" Delta.ofJson?
  let timestamp ← Json.required fields "timestamp" readWord
  let receipt ← Json.required fields "receipt_timestamp" readWord
  some { symbol, isSnapshot, delta, timestamp, receipt }

/-- An event, if the whole value is readable. -/
def ofJson? (j : Json) : Option Event :=
  if j.isReadable then
    match tagged? j with
    | some ("ticker", j) => (tickerOfJson? j).map ticker
    | some ("trade", j) => (tradeOfJson? j).map trade
    | some ("book_update", j) => (bookOfJson? j).map book
    | _ => none
  else none

end Event

end MarketFeed.Market
