import MarketFeed.Feed.Error
import MarketFeed.Json.Printer
import MarketFeed.Json.Reader
import MarketFeed.Market.Event
import MarketFeed.Time.Instant

/-!
Frames of the exchange's stream. A frame is one JSON text: best prices, a whole order book, changes
of one, executions, or an answer to a request. Data frames may be numbered, by symbol.
-/
namespace MarketFeed.Feed

open Number Market

structure TickerFrame where
  symbol : String
  bid : Option Decimal
  ask : Option Decimal
  timestamp : UInt64
  sequence : Option UInt64
deriving DecidableEq

structure BookFrame where
  symbol : String
  bid : List Level
  ask : List Level
  sequence : Option UInt64
  timestamp : Option UInt64
deriving DecidableEq

structure Execution where
  id : String
  taker : Taker
  price : Decimal
  amount : Decimal
  timestamp : UInt64
deriving DecidableEq

structure TradesFrame where
  symbol : String
  trades : List Execution
  sequence : Option UInt64
deriving DecidableEq

/-- `result` and `serverError` keep the whole answer; `unrecognized` says what was not understood. -/
inductive Frame where
  | ticker (f : TickerFrame)
  | snapshot (f : BookFrame)
  | update (f : BookFrame)
  | trades (f : TradesFrame)
  | result (answer : Json)
  | serverError (answer : Json)
  | unrecognized (what : String)

/-- The levels of a frame as changes, those of bids first. -/
def BookFrame.changes (f : BookFrame) : List Change :=
  f.bid.map (Change.mk .bid) ++ f.ask.map (Change.mk .ask)

namespace Frame

/-- The symbol and number of a numbered frame. -/
def sequenced? : Frame → Option (String × UInt64)
  | ticker f => f.sequence.map (f.symbol, ·)
  | snapshot f | update f => f.sequence.map (f.symbol, ·)
  | trades f => f.sequence.map (f.symbol, ·)
  | result _ | serverError _ | unrecognized _ => none

def malformed {α : Type} (reason : String) : Except Error α := .error (.malformed reason)

/-- A value that is there, or else a reason against the frame. -/
def orMalformed {α : Type} (value : Option α) (reason : String) : Except Error α :=
  match value with
  | some a => .ok a
  | none => malformed reason

def timestamp (raw : String) : Except Error UInt64 :=
  match Time.timestamp raw with
  | .ok n => .ok (UInt64.ofNat n)
  | .error failure => malformed (failure.message raw)

/-- The number of a frame, which may be left out or `null`. -/
def sequence (params : Json) : Except Error (Option UInt64) :=
  match params.field? "sequence" with
  | none | some .null => .ok none
  | some j =>
    match j.asNat? 64 with
    | some n => .ok (some (UInt64.ofNat n))
    | none => malformed ("invalid sequence " ++ j.render)

/-- Best prices as they are written, the time still as text. -/
def tickerFields? (j : Json) : Option (String × Option Decimal × Option Decimal × String) := do
  let fields ← Json.record? ["symbol", "bid", "ask", "timestamp"] 4 j
  let symbol ← Json.required fields "symbol" Json.asText?
  let bid ← Json.optional fields "bid" Json.decimal?
  let ask ← Json.optional fields "ask" Json.decimal?
  let raw ← Json.required fields "timestamp" Json.asText?
  some (symbol, bid, ask, raw)

def tickerOf (j : Json) (sequence : Option UInt64) : Except Error Frame := do
  let (symbol, bid, ask, raw) ← orMalformed (tickerFields? j) "ticker"
  let timestamp ← timestamp raw
  .ok (ticker { symbol, bid, ask, timestamp, sequence })

def level? (j : Json) : Option Level := do
  let fields ← Json.record? ["price", "size"] 2 j
  let price ← Json.required fields "price" Json.decimal?
  let size ← Json.required fields "size" Json.decimal?
  some { price, size }

/-- Levels of both sides, a side left out being empty, and the time still as text, if there is
one. -/
def bookFields? (j : Json) : Option (String × List Level × List Level × Option String) := do
  let fields ← Json.record? ["symbol", "bid", "ask", "timestamp"] 4 j
  let symbol ← Json.required fields "symbol" Json.asText?
  let bid ← Json.withDefault fields "bid" [] (Json.list? level?)
  let ask ← Json.withDefault fields "ask" [] (Json.list? level?)
  let raw ← Json.optional fields "timestamp" Json.asText?
  some (symbol, bid, ask, raw)

def bookOf (j : Json) (sequence : Option UInt64) : Except Error BookFrame := do
  let (symbol, bid, ask, raw) ← orMalformed (bookFields? j) "orderbook"
  let timestamp ←
    match raw with
    | none => .ok none
    | some raw => (timestamp raw).map some
  .ok { symbol, bid, ask, sequence, timestamp }

/-- The text of an execution's id: itself if it is text, else its JSON text. -/
def idText : Json → String
  | .text s => s
  | j => j.render

/-- One execution, the time still as text. -/
def execution? (j : Json) : Option (Execution × String) := do
  let fields ← Json.record? ["id", "price", "quantity", "side", "timestamp"] 5 j
  let id ← Json.required fields "id" some
  let price ← Json.required fields "price" Json.decimal?
  let amount ← Json.required fields "quantity" Json.decimal?
  let taker ← Json.required fields "side" (Taker.ofJson? fun j => j matches .null)
  let raw ← Json.required fields "timestamp" Json.asText?
  some ({ id := idText id, taker, price, amount, timestamp := 0 }, raw)

def tradesFields? (j : Json) : Option (String × List (Execution × String)) := do
  let fields ← Json.record? ["symbol", "data"] 2 j
  let symbol ← Json.required fields "symbol" Json.asText?
  let data ← Json.required fields "data" (Json.list? execution?)
  some (symbol, data)

def tradesOf (j : Json) (sequence : Option UInt64) : Except Error Frame := do
  let (symbol, data) ← orMalformed (tradesFields? j) "trades"
  let executions ← data.mapM fun (execution, raw) =>
    (timestamp raw).map fun timestamp => { execution with timestamp }
  .ok (trades { symbol, trades := executions, sequence })

/-- A frame with a `method`, whose content is in `params`. -/
def ofMethod (method : Json) (frame : Json) : Except Error Frame := do
  let method ← orMalformed method.asText? "method is not a string"
  let params ← orMalformed (frame.field? "params") (method ++ " without params")
  let sequence ← sequence params
  match method with
  | "ticker" => tickerOf params sequence
  | "snapshotOrderbook" => (bookOf params sequence).map snapshot
  | "updateOrderbook" => (bookOf params sequence).map update
  | "updateTrades" | "snapshotTrades" => tradesOf params sequence
  | other => .ok (unrecognized ("method " ++ other))

/-- A frame with a `channel`, whose content is in `data`. It is never numbered. -/
def ofChannel (channel : Json) (frame : Json) : Except Error Frame :=
  match channel.asText? with
  | some "ticker" => do
    let data ← orMalformed (frame.field? "data") "ticker channel without data"
    tickerOf data none
  | some other => .ok (unrecognized ("channel " ++ other))
  | none => malformed "channel is not a string"

/-- Whether a result says anything: not `null`, not `false`, and not empty. -/
def saysSomething : Json → Bool
  | .null => false
  | .bool b => b
  | .text s => s ≠ ""
  | .array items => !items.isEmpty
  | .object fields => !fields.isEmpty
  | _ => true

def ofJson (frame : Json) : Except Error Frame :=
  match frame.field? "method" with
  | some method => ofMethod method frame
  | none =>
    match frame.field? "channel" with
    | some channel => ofChannel channel frame
    | none =>
      if (frame.field? "error").isSome then .ok (serverError frame)
      else
        match frame.field? "result" with
        | some answer => .ok (if saysSomething answer then result frame else serverError frame)
        | none => .ok (unrecognized "no discriminator")

/-- Reads one frame. -/
def decode (raw : String) : Except Error Frame := do
  let frame ← orMalformed ((Json.ofText? raw).bind Json.canonical) "JSON parse error"
  ofJson frame

end Frame

end MarketFeed.Feed
